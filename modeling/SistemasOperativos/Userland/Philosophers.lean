import Mathlib.Logic.Function.Basic
import SistemasOperativos.Semantics.Run

/-!
# The philosophers of the demonstration program

`take_fork`, `put_fork` and `testP` of dummy.c for any number of philosophers. Each
access to the array `state` is a step of its own, and a mutex keeps the philosophers
apart. `testP` finds the left neighbour at `number + 4`, which is the left one of five
only. For two philosophers the right neighbour is also the left one. For all other
numbers two neighbours come to eat at once (`neighbours_apart_iff`).

`createThreads` gives the philosophers an array of pointers for the array of the
semaphores, so what `wait` and `signal` do depends on where the semaphores lie in memory.
Here a philosopher may go on from `wait` at any time, and `signal` is left out.
-/

namespace SistemasOperativos.Userland

open SistemasOperativos.Semantics

/-- `THINKING`, `HUNGRY` and `EATING`. -/
inductive PhilosopherState where
  | thinking
  | hungry
  | eating
  deriving DecidableEq, Repr

/-- The accesses to the array in `testP`. -/
inductive TestPoint where
  | readsOwn
  | readsLeft
  | readsRight
  | setsEating
  deriving DecidableEq, Repr

/-- Where a philosopher stands: in `take_fork` up to `waits`, then in `put_fork`. -/
inductive Point where
  | locksInTake
  | setsHungry
  | tests (test : TestPoint)
  | freesInTake
  | waits
  | locksInPut
  | setsThinking
  | testsLeft (test : TestPoint)
  | testsRight (test : TestPoint)
  | freesInPut
  deriving DecidableEq, Repr

/-- The array `state`, the philosopher who has the mutex, and where each one stands. -/
structure Table where
  state : Nat → PhilosopherState
  mutex : Option Nat
  point : Nat → Point

/-- A step of `testP`, and where it goes on. It returns from a test that fails, and after
the last step. -/
def testP (number total : Nat) (state : Nat → PhilosopherState) :
    TestPoint → (Nat → PhilosopherState) × Option TestPoint
  | .readsOwn => (state, if state number = .hungry then some .readsLeft else none)
  | .readsLeft =>
      (state, if state ((number + 4) % total) ≠ .eating then some .readsRight else none)
  | .readsRight =>
      (state, if state ((number + 1) % total) ≠ .eating then some .setsEating else none)
  | .setsEating => (Function.update state number .eating, none)

namespace Table

/-- Philosopher `k` goes on from another point, perhaps with a changed array. -/
def move (table : Table) (k : Nat) (point : Point) (state : Nat → PhilosopherState) : Table :=
  { table with state, point := Function.update table.point k point }

/-- A step of a `testP` that philosopher `k` makes for `number`. -/
def test (table : Table) (total k number : Nat) (test : TestPoint) (goesOn : TestPoint → Point)
    (returns : Point) : Table :=
  match testP number total table.state test with
  | (state, some next) => table.move k (goesOn next) state
  | (state, none) => table.move k returns state

/-- The next step of philosopher `k` among `total`; `none` while another one has the mutex. -/
def step (total : Nat) (table : Table) (k : Nat) : Option Table :=
  if total ≤ k then none
  else
    match table.point k with
    | .locksInTake =>
        if table.mutex = none then
          some ({ table with mutex := some k }.move k .setsHungry table.state)
        else none
    | .setsHungry =>
        some (table.move k (.tests .readsOwn) (Function.update table.state k .hungry))
    | .tests test => some (table.test total k k test .tests .freesInTake)
    | .freesInTake => some ({ table with mutex := none }.move k .waits table.state)
    | .waits => some (table.move k .locksInPut table.state)
    | .locksInPut =>
        if table.mutex = none then
          some ({ table with mutex := some k }.move k .setsThinking table.state)
        else none
    | .setsThinking =>
        some (table.move k (.testsLeft .readsOwn) (Function.update table.state k .thinking))
    | .testsLeft test =>
        some (table.test total k ((k + 4) % total) test .testsLeft (.testsRight .readsOwn))
    | .testsRight test =>
        some (table.test total k ((k + 1) % total) test .testsRight .freesInPut)
    | .freesInPut => some ({ table with mutex := none }.move k .locksInTake table.state)

/-- Everybody thinks and is about to take the forks. -/
def initial : Table where
  state := fun _ => .thinking
  mutex := none
  point := fun _ => .locksInTake

/-- No two neighbours eat. -/
def NeighboursApart (total : Nat) (state : Nat → PhilosopherState) : Prop :=
  ∀ k < total, ¬ (state k = .eating ∧ state ((k + 1) % total) = .eating)

/-! ## Two and five philosophers -/

/-- The points between `lockMutex` and `freeMutex`. -/
def InSection : Point → Prop
  | .locksInTake | .waits | .locksInPut => False
  | _ => True

/-- The philosopher that is tested at a point, and how far the test got. -/
def tested (total k : Nat) : Point → Option (Nat × TestPoint)
  | .tests test => some (k, test)
  | .testsLeft test => some ((k + 4) % total, test)
  | .testsRight test => some ((k + 1) % total, test)
  | _ => none

theorem inSection_of_tested {total k number : Nat} {point : Point} {test : TestPoint}
    (stands : tested total k point = some (number, test)) : InSection point := by
  cases point with
  | locksInTake | waits | locksInPut => cases stands
  | setsHungry | tests | freesInTake | setsThinking | testsLeft | testsRight | freesInPut =>
      trivial

/-- What a test has read so far. -/
def HasRead (total : Nat) (state : Nat → PhilosopherState) (number : Nat) : TestPoint → Prop
  | .readsOwn | .readsLeft => True
  | .readsRight => state ((number + 4) % total) ≠ .eating
  | .setsEating =>
      state ((number + 4) % total) ≠ .eating ∧ state ((number + 1) % total) ≠ .eating

/-- The invariant of the runs. -/
structure Seated (total : Nat) (table : Table) : Prop where
  exclusive : ∀ k, InSection (table.point k) → table.mutex = some k
  hasRead : ∀ k number test, tested total k (table.point k) = some (number, test) →
    HasRead total table.state number test
  apart : NeighboursApart total table.state

section Update

variable {total : Nat} {state : Nat → PhilosopherState}

/-- Somebody who does not eat has no part in it. -/
theorem NeighboursApart.update (apart : NeighboursApart total state) {k : Nat}
    {value : PhilosopherState} (other : value ≠ .eating) :
    NeighboursApart total (Function.update state k value) := by
  have before : ∀ m, Function.update state k value m = .eating → state m = .eating := by
    intro m eats
    rw [Function.update_apply] at eats
    split at eats
    · exact absurd eats other
    · exact eats
  intro m seat both
  exact apart m seat ⟨before m both.1, before _ both.2⟩

/-- For two and for five, who was tested may eat. -/
theorem NeighboursApart.eats (apart : NeighboursApart total state) {number : Nat}
    (size : total = 2 ∨ total = 5)
    (hasRead : HasRead total state number .setsEating) :
    NeighboursApart total (Function.update state number .eating) := by
  obtain ⟨left, right⟩ := hasRead
  intro m seat ⟨first, second⟩
  rw [Function.update_apply] at first second
  by_cases here : m = number
  · subst here
    rw [if_neg (by rcases size with rfl | rfl <;> omega)] at second
    exact right second
  · rw [if_neg here] at first
    split at second
    · rename_i next
      -- The one in front of `number` is the one that `testP` calls the left one, or the right one.
      have tested : m = (number + 4) % total ∨ m = (number + 1) % total := by
        rcases size with rfl | rfl <;> omega
      rcases tested with rfl | rfl
      · exact left first
      · exact right first
    · exact apart m seat ⟨first, second⟩

end Update

namespace Seated

variable {total k : Nat} {table : Table}

/-- Nobody else is between `lockMutex` and `freeMutex`. -/
theorem alone (seated : Seated total table) (inside : InSection (table.point k)) {j : Nat}
    (other : j ≠ k) : ¬ InSection (table.point j) := by
  intro inSection
  have mine := seated.exclusive k inside
  rw [seated.exclusive j inSection] at mine
  exact other (Option.some.inj mine)

/-- A step between `lockMutex` and `freeMutex` disturbs no test of the others. -/
theorem move (seated : Seated total table) {point : Point} {state : Nat → PhilosopherState}
    (inside : InSection (table.point k)) (apart : NeighboursApart total state)
    (hasRead : ∀ number test, tested total k point = some (number, test) →
      HasRead total state number test) :
    Seated total (table.move k point state) := by
  refine ⟨fun j inSection => ?_, fun j number test stands => ?_, apart⟩
  · by_cases here : j = k
    · rw [here]
      exact seated.exclusive k inside
    · simp only [Table.move, Function.update_of_ne here] at inSection
      exact absurd inSection (seated.alone inside here)
  · by_cases here : j = k
    · subst here
      simp only [Table.move, Function.update_self] at stands
      exact hasRead number test stands
    · simp only [Table.move, Function.update_of_ne here] at stands
      exact absurd (inSection_of_tested stands) (seated.alone inside here)

/-- A philosopher who gets the mutex finds nobody between `lockMutex` and `freeMutex`. -/
theorem lock (seated : Seated total table) (free : table.mutex = none) {point : Point}
    (untested : tested total k point = none) :
    Seated total ({ table with mutex := some k }.move k point table.state) := by
  have nobody : ∀ j, ¬ InSection (table.point j) := by
    intro j inSection
    rw [seated.exclusive j inSection] at free
    cases free
  refine ⟨fun j inSection => ?_, fun j number test stands => ?_, seated.apart⟩
  · by_cases here : j = k
    · rw [here]
      rfl
    · simp only [Table.move, Function.update_of_ne here] at inSection
      exact absurd inSection (nobody j)
  · by_cases here : j = k
    · subst here
      simp only [Table.move, Function.update_self, untested] at stands
      cases stands
    · simp only [Table.move, Function.update_of_ne here] at stands
      exact absurd (inSection_of_tested stands) (nobody j)

/-- A philosopher who leaves the mutex leaves nobody behind. -/
theorem free (seated : Seated total table) {point : Point} (inside : InSection (table.point k))
    (outside : ¬ InSection point) :
    Seated total ({ table with mutex := none }.move k point table.state) := by
  have nobody : ∀ j, ¬ InSection (Function.update table.point k point j) := by
    intro j inSection
    by_cases here : j = k
    · subst here
      rw [Function.update_self] at inSection
      exact outside inSection
    · rw [Function.update_of_ne here] at inSection
      exact seated.alone inside here inSection
  exact ⟨fun j inSection => absurd inSection (nobody j),
    fun j number test stands => absurd (inSection_of_tested stands) (nobody j), seated.apart⟩

/-- A step from one point outside to another one changes nothing. -/
theorem pass (seated : Seated total table) {point : Point} (outside : ¬ InSection point) :
    Seated total (table.move k point table.state) := by
  refine ⟨fun j inSection => ?_, fun j number test stands => ?_, seated.apart⟩
  · by_cases here : j = k
    · subst here
      simp only [Table.move, Function.update_self] at inSection
      exact absurd inSection outside
    · simp only [Table.move, Function.update_of_ne here] at inSection
      exact seated.exclusive j inSection
  · by_cases here : j = k
    · subst here
      simp only [Table.move, Function.update_self] at stands
      exact absurd (inSection_of_tested stands) outside
    · simp only [Table.move, Function.update_of_ne here] at stands
      exact seated.hasRead j number test stands

/-- A step of `testP`. -/
theorem test (seated : Seated total table) (size : total = 2 ∨ total = 5) {number : Nat}
    {test : TestPoint} {goesOn : TestPoint → Point} {returns : Point}
    (stands : tested total k (table.point k) = some (number, test))
    (same : ∀ next, tested total k (goesOn next) = some (number, next))
    (fresh : ∀ other next, tested total k returns = some (other, next) → next = .readsOwn) :
    Seated total (table.test total k number test goesOn returns) := by
  have inside := inSection_of_tested stands
  have hasRead := seated.hasRead k number test stands
  have returned : ∀ state, ∀ other next, tested total k returns = some (other, next) →
      HasRead total state other next := by
    intro state other next starts
    rw [fresh other next starts]
    trivial
  have continued : ∀ next, HasRead total table.state number next → ∀ other further,
      tested total k (goesOn next) = some (other, further) →
        HasRead total table.state other further := by
    intro next here other further starts
    rw [same] at starts
    obtain ⟨rfl, rfl⟩ := Prod.mk.inj (Option.some.inj starts)
    exact here
  cases test with
  | readsOwn =>
      by_cases hungry : table.state number = .hungry
      · simp only [Table.test, testP, if_pos hungry]
        exact seated.move inside seated.apart (continued _ trivial)
      · simp only [Table.test, testP, if_neg hungry]
        exact seated.move inside seated.apart (returned _)
  | readsLeft =>
      by_cases left : table.state ((number + 4) % total) = .eating
      · simp only [Table.test, testP, ne_eq, left, not_true, if_false]
        exact seated.move inside seated.apart (returned _)
      · simp only [Table.test, testP, ne_eq, left, not_false_eq_true, if_true]
        exact seated.move inside seated.apart (continued _ left)
  | readsRight =>
      by_cases right : table.state ((number + 1) % total) = .eating
      · simp only [Table.test, testP, ne_eq, right, not_true, if_false]
        exact seated.move inside seated.apart (returned _)
      · simp only [Table.test, testP, ne_eq, right, not_false_eq_true, if_true]
        exact seated.move inside seated.apart (continued _ ⟨hasRead, right⟩)
  | setsEating => exact seated.move inside (seated.apart.eats size hasRead) (returned _)

/-- One step of anybody. -/
theorem step (size : total = 2 ∨ total = 5) (seated : Seated total table) {next : Table}
    (stepped : table.step total k = some next) : Seated total next := by
  simp only [Table.step] at stepped
  split at stepped
  case isTrue => cases stepped
  have own : ∀ other test, tested total k (.tests .readsOwn) = some (other, test) →
      HasRead total (Function.update table.state k .hungry) other test := by
    rintro _ _ ⟨⟩
    trivial
  have left : ∀ other test, tested total k (.testsLeft .readsOwn) = some (other, test) →
      HasRead total (Function.update table.state k .thinking) other test := by
    rintro _ _ ⟨⟩
    trivial
  cases stands : table.point k <;> simp only [stands] at stepped
  case locksInTake | locksInPut =>
    split at stepped
    · rename_i free
      obtain rfl := Option.some.inj stepped
      exact seated.lock free rfl
    · cases stepped
  case setsHungry =>
    obtain rfl := Option.some.inj stepped
    exact seated.move (by rw [stands]; trivial) (seated.apart.update (by decide)) own
  case setsThinking =>
    obtain rfl := Option.some.inj stepped
    exact seated.move (by rw [stands]; trivial) (seated.apart.update (by decide)) left
  case tests test =>
    obtain rfl := Option.some.inj stepped
    exact seated.test size (by rw [stands]; rfl) (fun _ => rfl) fun _ _ starts => by cases starts
  case testsLeft test =>
    obtain rfl := Option.some.inj stepped
    refine seated.test size (by rw [stands]; rfl) (fun _ => rfl) ?_
    rintro _ _ ⟨⟩
    rfl
  case testsRight test =>
    obtain rfl := Option.some.inj stepped
    exact seated.test size (by rw [stands]; rfl) (fun _ => rfl) fun _ _ starts => by cases starts
  case freesInTake | freesInPut =>
    obtain rfl := Option.some.inj stepped
    exact seated.free (by rw [stands]; trivial) id
  case waits =>
    obtain rfl := Option.some.inj stepped
    exact seated.pass id

end Seated

theorem initial_seated (total : Nat) : Seated total initial where
  exclusive _ inside := inside.elim
  hasRead _ _ _ stands := by cases stands
  apart _ _ both := by cases both.1

/-! ## Other numbers -/

/-- A philosopher whose tests find nobody eating takes the forks. -/
theorem take_fork_alone {total k : Nat} {table : Table} (seat : k < total)
    (free : table.mutex = none) (stands : table.point k = .locksInTake)
    (left : table.state ((k + 4) % total) ≠ .eating)
    (right : table.state ((k + 1) % total) ≠ .eating) :
    run (step total) table (List.replicate 7 k) =
      some (table.move k .waits (Function.update table.state k .eating)) := by
  have stillNot : ∀ m, table.state m ≠ .eating →
      Function.update table.state k .hungry m ≠ .eating := by
    intro m not
    rw [Function.update_apply]
    split
    · decide
    · exact not
  have left := stillNot _ left
  have right := stillNot _ right
  have here : ¬ total ≤ k := not_le.mpr seat
  simp [List.replicate, run, step, here, stands, free, move, test, testP, left, right]

/-- For any other number the first two philosophers take their forks one after the other. -/
theorem both_eat {total : Nat} (several : 2 ≤ total) (size : ¬ (total = 2 ∨ total = 5)) :
    ∃ final, run (step total) initial (List.replicate 7 0 ++ List.replicate 7 1) = some final ∧
      final.state 0 = .eating ∧ final.state 1 = .eating := by
  have first : run (step total) initial (List.replicate 7 0) =
      some (initial.move 0 .waits (Function.update initial.state 0 .eating)) :=
    take_fork_alone (by omega) rfl rfl (by simp [initial]) (by simp [initial])
  have left : (1 + 4) % total ≠ 0 := by
    rcases Nat.lt_or_ge 5 total with large | small
    · rw [Nat.mod_eq_of_lt (by omega)]
      omega
    · obtain rfl | rfl : total = 3 ∨ total = 4 := by omega
      all_goals decide
  have right : (1 + 1) % total ≠ 0 := by
    rw [Nat.mod_eq_of_lt (by omega)]
    omega
  have second := @take_fork_alone total 1
    (initial.move 0 .waits (Function.update initial.state 0 .eating)) (by omega) rfl rfl
    (by simp [move, initial, left]) (by simp [move, initial, right])
  refine ⟨_, run_append first second, ?_, ?_⟩ <;> simp [move]

/-- Among two or more philosophers, no two neighbours ever eat at once exactly when there
are two or five. -/
theorem neighbours_apart_iff {total : Nat} (several : 2 ≤ total) :
    (∀ actions final, run (step total) initial actions = some final →
      NeighboursApart total final.state) ↔ total = 2 ∨ total = 5 := by
  constructor
  · intro always
    by_contra size
    obtain ⟨final, ran, zero, one⟩ := both_eat several size
    have next : (0 + 1) % total = 1 := Nat.mod_eq_of_lt (by omega)
    exact always _ final ran 0 (by omega) ⟨zero, by rw [next, one]⟩
  · intro size actions final ran
    have seated : Seated total final :=
      run_invariant (fun _ _ _ here stepped => here.step size stepped) (initial_seated total) ran
    exact seated.apart

theorem five_philosophers_apart : 2 ≤ 5 ∧ ∀ actions final,
    run (step 5) initial actions = some final → NeighboursApart 5 final.state :=
  ⟨by decide, (neighbours_apart_iff (by decide)).mpr (.inr rfl)⟩

/-- Three philosophers: the second one takes the forks while the first one eats. -/
theorem three_philosophers_eat : ∃ final,
    run (step 3) initial [0, 0, 0, 0, 0, 0, 0, 1, 1, 1, 1, 1, 1] = some final ∧
      final.state 0 = .eating ∧ final.state 1 = .eating ∧ ¬ NeighboursApart 3 final.state := by
  refine ⟨_, rfl, rfl, rfl, ?_⟩
  intro apart
  exact apart 0 (by decide) ⟨rfl, rfl⟩

end Table

end SistemasOperativos.Userland
