import SistemasOperativos.Userland.Philosophers

/-!
# Hungry philosophers are not forgotten

A philosopher whose test fails sleeps until somebody who puts the forks down tests again.
`put_fork` tests the philosophers at `number + 4` and `number + 1`, so nobody is forgotten when
these are the ones that `testP` calls the neighbours of each other: for one, two and five
philosophers. Then, whenever nobody has the mutex, each hungry philosopher sits beside one who
eats. For every other number one of them stays hungry while nobody beside eats
(`nobody_forgotten_iff`).
-/

namespace SistemasOperativos.Userland

open SistemasOperativos.Semantics

namespace Table

/-- One of those whom `testP` calls the neighbours eats. -/
def Blocked (total : Nat) (state : Nat → PhilosopherState) (number : Nat) : Prop :=
  state ((number + 4) % total) = .eating ∨ state ((number + 1) % total) = .eating

/-- Each hungry philosopher sits beside one who eats. -/
def NobodyForgotten (total : Nat) (state : Nat → PhilosopherState) : Prop :=
  ∀ number < total, state number = .hungry → Blocked total state number

/-- Who stands at the point, philosopher `k`, has yet to test the other one. -/
def Owes (total k number : Nat) : Point → Prop
  | .tests _ => number = k
  | .testsLeft _ => number = (k + 4) % total ∨ number = (k + 1) % total
  | .testsRight _ => number = (k + 1) % total
  | _ => False

/-- The points from the assignment in `put_fork` to the one in `take_fork`. -/
def Idle : Point → Prop
  | .testsLeft _ | .testsRight _ | .freesInPut | .locksInTake | .setsHungry => True
  | _ => False

/-- The invariant of the runs. -/
structure Served (total : Nat) (table : Table) : Prop where
  exclusive : ∀ k, InSection (table.point k) → table.mutex = some k
  thinking : ∀ k, Idle (table.point k) → table.state k = .thinking
  hungry : ∀ k number test, tested total k (table.point k) = some (number, test) →
    test ≠ .readsOwn → table.state number = .hungry
  served : ∀ number < total, table.state number = .hungry →
    Blocked total table.state number ∨
      ∃ k, table.mutex = some k ∧ Owes total k number (table.point k)

/-- The philosophers tested by `put_fork` are those for whom `testP` would find the forks taken. -/
def Mutual (total : Nat) : Prop :=
  ∀ j < total, ∀ k < total, j = (k + 4) % total ∨ j = (k + 1) % total →
    k = (j + 4) % total ∨ k = (j + 1) % total

theorem mutual_of_size {total : Nat} (size : total = 1 ∨ total = 2 ∨ total = 5) :
    Mutual total := by
  intro j seat k other beside
  rcases size with rfl | rfl | rfl <;> omega

theorem inSection_of_owes {total k number : Nat} {point : Point}
    (owes : Owes total k number point) : InSection point := by
  cases point with
  | tests | testsLeft | testsRight => trivial
  | locksInTake | setsHungry | freesInTake | waits | locksInPut | setsThinking | freesInPut =>
      cases owes

/-- Who comes to eat leaves those blocked who are. -/
theorem Blocked.eats {total number k : Nat} {state : Nat → PhilosopherState}
    (blocked : Blocked total state k) : Blocked total (Function.update state number .eating) k := by
  have kept : ∀ m, state m = .eating → Function.update state number .eating m = .eating := by
    intro m eats
    rw [Function.update_apply]
    split
    · rfl
    · exact eats
  exact blocked.imp (kept _) (kept _)

namespace Served

variable {total k : Nat} {table : Table}

/-- A step between `lockMutex` and `freeMutex`. -/
theorem move (served : Served total table) (inside : InSection (table.point k)) {point : Point}
    {state : Nat → PhilosopherState}
    (others : ∀ j, j ≠ k → table.state j = .thinking → state j = .thinking)
    (thinking : Idle point → state k = .thinking)
    (hungry : ∀ number test, tested total k point = some (number, test) →
      test ≠ .readsOwn → state number = .hungry)
    (fed : ∀ number < total, state number = .hungry →
      Blocked total state number ∨ Owes total k number point) :
    Served total (table.move k point state) := by
  have mine := served.exclusive k inside
  have alone : ∀ j, j ≠ k → ¬ InSection (table.point j) := by
    intro j other inSection
    exact other (Option.some.inj ((served.exclusive j inSection).symm.trans mine))
  refine ⟨fun j inSection => ?_, fun j idle => ?_, fun j number test stands late => ?_,
    fun number seat starves => ?_⟩
  · by_cases here : j = k
    · rw [here]
      exact mine
    · simp only [Table.move, Function.update_of_ne here] at inSection
      exact absurd inSection (alone j here)
  · by_cases here : j = k
    · subst here
      simp only [Table.move, Function.update_self] at idle
      exact thinking idle
    · simp only [Table.move, Function.update_of_ne here] at idle
      exact others j here (served.thinking j idle)
  · by_cases here : j = k
    · subst here
      simp only [Table.move, Function.update_self] at stands
      exact hungry number test stands late
    · simp only [Table.move, Function.update_of_ne here] at stands
      exact absurd (inSection_of_tested stands) (alone j here)
  · refine (fed number seat starves).imp_right fun owes => ⟨k, mine, ?_⟩
    simp only [Table.move, Function.update_self]
    exact owes

/-- A step that is no test and assigns nothing leaves the array as it is. -/
theorem pass (served : Served total table) {point : Point} {mutex : Option Nat}
    (exclusive : ∀ j, InSection (Function.update table.point k point j) → mutex = some j)
    (idle : Idle point → Idle (table.point k)) (untested : tested total k point = none)
    (fed : NobodyForgotten total table.state ∨ ¬ InSection (table.point k) ∧ mutex = table.mutex) :
    Served total ({ table with mutex }.move k point table.state) := by
  refine ⟨exclusive, fun j isIdle => ?_, fun j number test stands late => ?_,
    fun number seat starves => ?_⟩
  · by_cases here : j = k
    · subst here
      simp only [Table.move, Function.update_self] at isIdle
      exact served.thinking j (idle isIdle)
    · simp only [Table.move, Function.update_of_ne here] at isIdle
      exact served.thinking j isIdle
  · by_cases here : j = k
    · subst here
      simp only [Table.move, Function.update_self, untested] at stands
      cases stands
    · simp only [Table.move, Function.update_of_ne here] at stands
      exact served.hungry j number test stands late
  · rcases fed with nobody | ⟨outside, rfl⟩
    · exact .inl (nobody number seat starves)
    · refine (served.served number seat starves).imp_right ?_
      rintro ⟨j, owner, owes⟩
      have other : j ≠ k := by
        rintro rfl
        exact outside (inSection_of_owes owes)
      refine ⟨j, owner, ?_⟩
      simp only [Table.move, Function.update_of_ne other]
      exact owes

/-- A step of `testP`: it makes its philosopher eat, or finds that he need not or cannot. -/
theorem test (served : Served total table) {number : Nat} {test : TestPoint}
    {goesOn : TestPoint → Point} {returns : Point}
    (stands : tested total k (table.point k) = some (number, test))
    (same : ∀ next, tested total k (goesOn next) = some (number, next))
    (fresh : ∀ other next, tested total k returns = some (other, next) → next = .readsOwn)
    (idle : ∀ next, Idle (goesOn next) → Idle (table.point k))
    (idle' : Idle returns → Idle (table.point k))
    (owes : ∀ n next, Owes total k n (table.point k) → Owes total k n (goesOn next))
    (owes' : ∀ n, Owes total k n (table.point k) → n = number ∨ Owes total k n returns) :
    Served total (table.test total k number test goesOn returns) := by
  have inside := inSection_of_tested stands
  have mine := served.exclusive k inside
  have fed : ∀ n < total, table.state n = .hungry →
      Blocked total table.state n ∨ Owes total k n (table.point k) := by
    intro n seat starves
    refine (served.served n seat starves).imp_right ?_
    rintro ⟨j, owner, owing⟩
    obtain rfl := Option.some.inj (mine.symm.trans owner)
    exact owing
  have untested : ∀ state : Nat → PhilosopherState, ∀ other next,
      tested total k returns = some (other, next) → next ≠ .readsOwn → state other = .hungry :=
    fun _ other next starts late => absurd (fresh other next starts) late
  have continues : ∀ next, table.state number = .hungry →
      Served total (table.move k (goesOn next) table.state) := by
    intro next starves
    refine served.move inside (fun _ _ => id) (fun isIdle => served.thinking k (idle next isIdle))
      (fun other further starts _ => ?_) fun n seat hungry =>
        (fed n seat hungry).imp_right (owes n next)
    rw [same] at starts
    obtain ⟨rfl, -⟩ := Prod.mk.inj (Option.some.inj starts)
    exact starves
  have returned : (table.state number = .hungry → Blocked total table.state number) →
      Served total (table.move k returns table.state) := by
    intro blocked
    refine served.move inside (fun _ _ => id) (fun isIdle => served.thinking k (idle' isIdle))
      (untested _) fun n seat starves => ?_
    rcases fed n seat starves with already | owing
    · exact .inl already
    · rcases owes' n owing with rfl | later
      · exact .inl (blocked starves)
      · exact .inr later
  cases test with
  | readsOwn =>
      by_cases starves : table.state number = .hungry
      · simp only [Table.test, testP, if_pos starves]
        exact continues _ starves
      · simp only [Table.test, testP, if_neg starves]
        exact returned fun hungry => absurd hungry starves
  | readsLeft =>
      have starves := served.hungry k number _ stands (by decide)
      by_cases left : table.state ((number + 4) % total) = .eating
      · simp only [Table.test, testP, ne_eq, left, not_true, if_false]
        exact returned fun _ => .inl left
      · simp only [Table.test, testP, ne_eq, left, not_false_eq_true, if_true]
        exact continues _ starves
  | readsRight =>
      have starves := served.hungry k number _ stands (by decide)
      by_cases right : table.state ((number + 1) % total) = .eating
      · simp only [Table.test, testP, ne_eq, right, not_true, if_false]
        exact returned fun _ => .inr right
      · simp only [Table.test, testP, ne_eq, right, not_false_eq_true, if_true]
        exact continues _ starves
  | setsEating =>
      have starves := served.hungry k number _ stands (by decide)
      have different : ∀ j, table.state j = .thinking → j ≠ number := by
        rintro j thinks rfl
        rw [starves] at thinks
        cases thinks
      have thinks : ∀ j, table.state j = .thinking →
          Function.update table.state number .eating j = .thinking := fun j here =>
        (Function.update_of_ne (different j here) ..).trans here
      refine served.move inside (fun j _ => thinks j)
        (fun isIdle => thinks k (served.thinking k (idle' isIdle))) (untested _)
        fun n seat hungry => ?_
      have other : n ≠ number := by
        rintro rfl
        rw [Function.update_self] at hungry
        cases hungry
      rw [Function.update_of_ne other] at hungry
      rcases fed n seat hungry with already | owing
      · exact .inl already.eats
      · exact .inr ((owes' n owing).resolve_left other)

/-- While nobody has the mutex nobody has to be tested. -/
theorem nobody_forgotten (served : Served total table)
    (owing : ∀ j, table.mutex = some j → ∀ n, ¬ Owes total j n (table.point j)) :
    NobodyForgotten total table.state := by
  intro number seat starves
  refine (served.served number seat starves).resolve_right ?_
  rintro ⟨j, owner, owes⟩
  exact owing j owner number owes

/-- A philosopher who gets the mutex finds nobody between `lockMutex` and `freeMutex`. -/
theorem lock (served : Served total table) (free : table.mutex = none) {point : Point}
    (idle : Idle point → Idle (table.point k)) (untested : tested total k point = none) :
    Served total ({ table with mutex := some k }.move k point table.state) := by
  refine served.pass (fun j inSection => ?_) idle untested (.inl (served.nobody_forgotten ?_))
  · by_cases here : j = k
    · rw [here]
    · rw [Function.update_of_ne here] at inSection
      rw [served.exclusive j inSection] at free
      cases free
  · intro j owner
    rw [free] at owner
    cases owner

/-- A philosopher who leaves the mutex has tested whom he had to. -/
theorem free (served : Served total table) (inside : InSection (table.point k)) {point : Point}
    (outside : ¬ InSection point) (idle : Idle point → Idle (table.point k))
    (untested : tested total k point = none)
    (owing : ∀ n, ¬ Owes total k n (table.point k)) :
    Served total ({ table with mutex := none }.move k point table.state) := by
  have mine := served.exclusive k inside
  refine served.pass (fun j inSection => ?_) idle untested (.inl (served.nobody_forgotten ?_))
  · by_cases here : j = k
    · subst here
      rw [Function.update_self] at inSection
      exact absurd inSection outside
    · rw [Function.update_of_ne here] at inSection
      exact absurd (Option.some.inj ((served.exclusive j inSection).symm.trans mine)) here
  · intro j owner
    obtain rfl := Option.some.inj (mine.symm.trans owner)
    exact owing

/-- The two assignments. Who is assigned `HUNGRY` is tested next. Those for whom only the one
who is assigned `THINKING` ate are tested next too. -/
theorem assign (served : Served total table) (inside : InSection (table.point k))
    (owing : ∀ n, ¬ Owes total k n (table.point k)) {point : Point} {value : PhilosopherState}
    (idle : Idle point → value = .thinking)
    (untested : ∀ other test, tested total k point = some (other, test) → test = .readsOwn)
    (fed : ∀ n < total, n = k ∧ value = .hungry ∨
      table.state k = .eating ∧ (k = (n + 4) % total ∨ k = (n + 1) % total) →
        Owes total k n point) :
    Served total (table.move k point (Function.update table.state k value)) := by
  have mine := served.exclusive k inside
  have nobody : NobodyForgotten total table.state := by
    refine served.nobody_forgotten fun j owner => ?_
    obtain rfl := Option.some.inj (mine.symm.trans owner)
    exact owing
  refine served.move inside (fun j other thinks => (Function.update_of_ne other ..).trans thinks)
    (fun isIdle => (Function.update_self ..).trans (idle isIdle))
    (fun other test starts late => absurd (untested other test starts) late) fun n seat hungry => ?_
  by_cases here : n = k
  · subst here
    rw [Function.update_self] at hungry
    exact .inr (fed n seat (.inl ⟨rfl, hungry⟩))
  · rw [Function.update_of_ne here] at hungry
    rcases nobody n seat hungry with left | right
    · by_cases mineLeft : (n + 4) % total = k
      · exact .inr (fed n seat (.inr ⟨mineLeft ▸ left, .inl mineLeft.symm⟩))
      · exact .inl (.inl ((Function.update_of_ne mineLeft ..).trans left))
    · by_cases mineRight : (n + 1) % total = k
      · exact .inr (fed n seat (.inr ⟨mineRight ▸ right, .inr mineRight.symm⟩))
      · exact .inl (.inr ((Function.update_of_ne mineRight ..).trans right))

/-- One step of anybody. -/
theorem step (together : Mutual total) (served : Served total table) {next : Table}
    (stepped : table.step total k = some next) : Served total next := by
  simp only [Table.step] at stepped
  split at stepped
  case isTrue => cases stepped
  rename_i seated
  have seat : k < total := Nat.lt_of_not_le seated
  cases stands : table.point k <;> simp only [stands] at stepped
  case locksInTake =>
    split at stepped
    · rename_i free
      obtain rfl := Option.some.inj stepped
      exact served.lock free (fun _ => by rw [stands]; trivial) rfl
    · cases stepped
  case locksInPut =>
    split at stepped
    · rename_i free
      obtain rfl := Option.some.inj stepped
      exact served.lock free False.elim rfl
    · cases stepped
  case setsHungry =>
    obtain rfl := Option.some.inj stepped
    have thinks := served.thinking k (by rw [stands]; trivial)
    refine served.assign (by rw [stands]; trivial) (by rw [stands]; exact fun _ => id)
      False.elim ?_ fun n _ reason => ?_
    · rintro _ _ ⟨⟩
      rfl
    · rcases reason with ⟨rfl, -⟩ | ⟨eats, -⟩
      · rfl
      · rw [thinks] at eats
        cases eats
  case setsThinking =>
    obtain rfl := Option.some.inj stepped
    refine served.assign (by rw [stands]; trivial) (by rw [stands]; exact fun _ => id)
      (fun _ => rfl) ?_ fun n inside reason => ?_
    · rintro _ _ ⟨⟩
      rfl
    · rcases reason with ⟨-, ⟨⟩⟩ | ⟨-, beside⟩
      exact together k seat n inside beside
  case tests test =>
    obtain rfl := Option.some.inj stepped
    refine served.test (by rw [stands]; rfl) (fun _ => rfl) (fun _ _ starts => by cases starts)
      (fun _ => False.elim) False.elim ?_ ?_
    all_goals rw [stands]
    · exact fun _ _ => id
    · exact fun _ => .inl
  case testsLeft test =>
    obtain rfl := Option.some.inj stepped
    refine served.test (by rw [stands]; rfl) (fun _ => rfl) ?_ ?_ ?_ ?_ ?_
    · rintro _ _ ⟨⟩
      rfl
    all_goals rw [stands]
    · exact fun _ => id
    · exact fun _ => trivial
    · exact fun _ _ => id
    · exact fun _ => id
  case testsRight test =>
    obtain rfl := Option.some.inj stepped
    refine served.test (by rw [stands]; rfl) (fun _ => rfl) (fun _ _ starts => by cases starts)
      ?_ ?_ ?_ ?_
    all_goals rw [stands]
    · exact fun _ => id
    · exact fun _ => trivial
    · exact fun _ _ => id
    · exact fun _ => .inl
  case freesInTake =>
    obtain rfl := Option.some.inj stepped
    exact served.free (by rw [stands]; trivial) id False.elim rfl
      (by rw [stands]; exact fun _ => id)
  case freesInPut =>
    obtain rfl := Option.some.inj stepped
    exact served.free (by rw [stands]; trivial) id (by rw [stands]; exact id) rfl
      (by rw [stands]; exact fun _ => id)
  case waits =>
    obtain rfl := Option.some.inj stepped
    refine served.pass (fun j inSection => ?_) False.elim rfl (.inr ⟨by rw [stands]; exact id, rfl⟩)
    by_cases here : j = k
    · subst here
      rw [Function.update_self] at inSection
      exact inSection.elim
    · rw [Function.update_of_ne here] at inSection
      exact served.exclusive j inSection

end Served

theorem initial_served (total : Nat) : Served total initial where
  exclusive _ inside := inside.elim
  thinking _ _ := rfl
  hungry _ _ _ stands := by cases stands
  served _ _ starves := by cases starves

/-! ## Other numbers -/

/-- A philosopher whose right neighbour eats stays hungry. -/
theorem take_fork_blocked {total : Nat} {table : Table} (several : 1 < total)
    (free : table.mutex = none) (stands : table.point 0 = .locksInTake)
    (right : table.state 1 = .eating) :
    ∃ steps, run (step total) table (List.replicate steps 0) =
      some (table.move 0 .waits (Function.update table.state 0 .hungry)) := by
  have here : ¬ total ≤ 0 := by omega
  have next : 1 % total = 1 := Nat.mod_eq_of_lt several
  by_cases left : Function.update table.state 0 .hungry ((0 + 4) % total) = .eating
  · refine ⟨5, ?_⟩
    simp at left
    simp [List.replicate, run, step, here, stands, free, move, test, testP, left]
  · refine ⟨6, ?_⟩
    simp at left
    simp [List.replicate, run, step, here, stands, free, move, test, testP, left, next, right]

/-- A philosopher whose tests find nobody hungry puts the forks down. -/
theorem put_fork_alone {total k : Nat} {table : Table} (seat : k < total)
    (free : table.mutex = none) (stands : table.point k = .waits)
    (left : Function.update table.state k .thinking ((k + 4) % total) ≠ .hungry)
    (right : Function.update table.state k .thinking ((k + 1) % total) ≠ .hungry) :
    run (step total) table (List.replicate 6 k) =
      some (table.move k .locksInTake (Function.update table.state k .thinking)) := by
  have here : ¬ total ≤ k := not_le.mpr seat
  simp [List.replicate, run, step, here, stands, free, move, test, testP, left, right]

/-- The first philosopher gets hungry while the second one eats, and is not tested again. -/
theorem first_forgotten {total : Nat} (several : 1 ≤ total)
    (size : ¬ (total = 1 ∨ total = 2 ∨ total = 5)) :
    ∃ actions final, run (step total) initial actions = some final ∧ final.mutex = none ∧
      final.state 0 = .hungry ∧ ∀ k, final.state k ≠ .eating := by
  have ate : run (step total) initial (List.replicate 7 1) =
      some (initial.move 1 .waits (Function.update initial.state 1 .eating)) :=
    take_fork_alone (by omega) rfl rfl (by simp [initial]) (by simp [initial])
  obtain ⟨steps, starved⟩ := @take_fork_blocked total
    (initial.move 1 .waits (Function.update initial.state 1 .eating)) (by omega) rfl rfl rfl
  have left : (1 + 4) % total ≠ 0 := by
    rcases Nat.lt_or_ge 5 total with large | small
    · rw [Nat.mod_eq_of_lt (by omega)]
      omega
    · obtain rfl | rfl : total = 3 ∨ total = 4 := by omega
      all_goals decide
  have right : (1 + 1) % total ≠ 0 := by
    rw [Nat.mod_eq_of_lt (by omega)]
    omega
  have notHungry : ∀ m, m ≠ 0 → Function.update (Function.update
      (Function.update initial.state 1 .eating) 0 .hungry) 1 .thinking m ≠ .hungry := by
    intro m other
    by_cases first : m = 1
    · simp [first]
    · simp [first, other, initial]
  have put := @put_fork_alone total 1 ((initial.move 1 .waits
    (Function.update initial.state 1 .eating)).move 0 .waits (Function.update
      (Function.update initial.state 1 .eating) 0 .hungry)) (by omega) rfl rfl
      (notHungry _ left) (notHungry _ right)
  refine ⟨_, _, run_append (run_append ate starved) put, rfl, rfl, fun k => ?_⟩
  simp only [move, initial, Function.update_apply]
  split
  · decide
  · split <;> decide

/-- Whenever nobody has the mutex every hungry philosopher sits beside one who eats, exactly
when there are one, two or five of them. -/
theorem nobody_forgotten_iff {total : Nat} (several : 1 ≤ total) :
    (∀ actions final, run (step total) initial actions = some final → final.mutex = none →
      NobodyForgotten total final.state) ↔ total = 1 ∨ total = 2 ∨ total = 5 := by
  constructor
  · intro always
    by_contra size
    obtain ⟨actions, final, ran, free, starves, nobody⟩ := first_forgotten several size
    rcases always actions final ran free 0 (by omega) starves with left | right
    · exact nobody _ left
    · exact nobody _ right
  · intro size actions final ran free
    have served : Served total final :=
      run_invariant (fun _ _ _ here stepped => here.step (mutual_of_size size) stepped)
        (initial_served total) ran
    refine served.nobody_forgotten fun j owner => ?_
    rw [free] at owner
    cases owner

theorem five_philosophers_served : 1 ≤ 5 ∧ ∀ actions final,
    run (step 5) initial actions = some final → final.mutex = none →
      NobodyForgotten 5 final.state :=
  ⟨by decide, (nobody_forgotten_iff (by decide)).mpr (.inr (.inr rfl))⟩

end Table

end SistemasOperativos.Userland
