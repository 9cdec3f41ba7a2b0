import Mathlib.Logic.Function.Basic
import SistemasOperativos.Foundation.RingBuffer
import SistemasOperativos.Foundation.Tally
import SistemasOperativos.Semantics.Run

/-!
# The producers and consumers of the demonstration program

`producer` and `consumer` of dummy.c, any number of each, with three counting semaphores.
Each access to the buffer, to `r` and to `w` is a step of its own. The semaphores keep the
steps in order, and at most `bufferSize` items stay in the buffer. An item is an `int` and
the buffer is made of `char`, so an item comes back as it was inserted exactly when it is a
value of type `char` (`items_in_order_iff`).
-/

namespace SistemasOperativos.Userland

open SistemasOperativos.Foundation SistemasOperativos.Semantics

/-- `bufferSize`. -/
def bufferSize : Nat := 50

instance : NeZero bufferSize := ⟨by decide⟩

/-- Where a producer stands. `inserts` and `advances` are the statements of `insertItem`. -/
inductive ProducerPoint where
  | produces
  | waitsEmpty (item : Int)
  | waitsItem (item : Int)
  | inserts (item : Int)
  | advances
  | signalsItem
  | signalsFull
  deriving DecidableEq, Repr

/-- Where a consumer stands. `removes` and `advances` are the statements of `removeItem`. -/
inductive ConsumerPoint where
  | waitsFull
  | waitsItem
  | removes
  | advances (result : Int8)
  | signalsItem
  | signalsEmpty
  deriving DecidableEq, Repr

namespace ProducerPoint

/-- The producer took a unit of `emptyCount` and has not inserted its item. -/
def room : ProducerPoint → Nat
  | .waitsItem _ | .inserts _ => 1
  | _ => 0

/-- The producer inserted its item and has not signalled `fullCount`. -/
def announcing : ProducerPoint → Nat
  | .advances | .signalsItem | .signalsFull => 1
  | _ => 0

/-- The producer has `itemMutex`. -/
def inSection : ProducerPoint → Nat
  | .inserts _ | .advances | .signalsItem => 1
  | _ => 0

end ProducerPoint

namespace ConsumerPoint

/-- The consumer took a unit of `fullCount` and has not removed an item. -/
def claimed : ConsumerPoint → Nat
  | .waitsItem | .removes | .advances _ => 1
  | _ => 0

/-- The consumer removed an item and has not signalled `emptyCount`. -/
def returning : ConsumerPoint → Nat
  | .signalsItem | .signalsEmpty => 1
  | _ => 0

/-- The consumer has `itemMutex`. -/
def inSection : ConsumerPoint → Nat
  | .removes | .advances _ | .signalsItem => 1
  | _ => 0

end ConsumerPoint

/-- The variables of dummy.c, the values of the semaphores, where each thread stands, the items
passed to `insertItem` and the items that `removeItem` returned. -/
structure ProdCons where
  i : Int
  buffer : Vector Int8 bufferSize
  r : Nat
  w : Nat
  itemMutex : Nat
  fullCount : Nat
  emptyCount : Nat
  producerPoint : Nat → ProducerPoint
  consumerPoint : Nat → ConsumerPoint
  inserted : List Int
  removed : List Int

/-- The thread that takes a step. -/
inductive Turn where
  | producer (k : Nat)
  | consumer (k : Nat)
  deriving DecidableEq, Repr

namespace ProdCons

/-- Producer `k` goes on from another point. -/
def produce (s : ProdCons) (k : Nat) (point : ProducerPoint) : ProdCons :=
  { s with producerPoint := Function.update s.producerPoint k point }

/-- Consumer `k` goes on from another point. -/
def consume (s : ProdCons) (k : Nat) (point : ConsumerPoint) : ProdCons :=
  { s with consumerPoint := Function.update s.consumerPoint k point }

/-- The next step of `producer` number `k`; `none` while it waits for a semaphore. -/
def producer (s : ProdCons) (k : Nat) : Option ProdCons :=
  match s.producerPoint k with
  | .produces => some ({ s with i := (s.i + 1).bmod (2 ^ 32) }.produce k (.waitsEmpty s.i))
  | .waitsEmpty item =>
      if 0 < s.emptyCount then
        some ({ s with emptyCount := s.emptyCount - 1 }.produce k (.waitsItem item))
      else none
  | .waitsItem item =>
      if 0 < s.itemMutex then
        some ({ s with itemMutex := s.itemMutex - 1 }.produce k (.inserts item))
      else none
  | .inserts item =>
      -- The parameter of `insertItem` is a `char`.
      some ({ s with
        buffer := s.buffer.setIfInBounds s.w (Int8.ofInt item)
        inserted := s.inserted ++ [item] }.produce k .advances)
  | .advances => some ({ s with w := (s.w + 1) % bufferSize }.produce k .signalsItem)
  | .signalsItem => some ({ s with itemMutex := s.itemMutex + 1 }.produce k .signalsFull)
  | .signalsFull => some ({ s with fullCount := s.fullCount + 1 }.produce k .produces)

/-- The next step of `consumer` number `k`; `none` while it waits for a semaphore. -/
def consumer (s : ProdCons) (k : Nat) : Option ProdCons :=
  match s.consumerPoint k with
  | .waitsFull =>
      if 0 < s.fullCount then
        some ({ s with fullCount := s.fullCount - 1 }.consume k .waitsItem)
      else none
  | .waitsItem =>
      if 0 < s.itemMutex then
        some ({ s with itemMutex := s.itemMutex - 1 }.consume k .removes)
      else none
  | .removes => some (s.consume k (.advances (s.buffer[s.r]?.getD 0)))
  | .advances result =>
      some ({ s with
        r := (s.r + 1) % bufferSize
        removed := s.removed ++ [result.toInt] }.consume k .signalsItem)
  | .signalsItem => some ({ s with itemMutex := s.itemMutex + 1 }.consume k .signalsEmpty)
  | .signalsEmpty => some ({ s with emptyCount := s.emptyCount + 1 }.consume k .waitsFull)

/-- A step of one of the threads. -/
def step (producers consumers : Nat) (s : ProdCons) : Turn → Option ProdCons
  | .producer k => if k < producers then s.producer k else none
  | .consumer k => if k < consumers then s.consumer k else none

/-- The semaphores as `prodCons` creates them, and the threads before their first step. -/
def initial : ProdCons where
  i := 0
  buffer := Vector.replicate bufferSize 0
  r := 0
  w := 0
  itemMutex := 1
  fullCount := 0
  emptyCount := bufferSize
  producerPoint := fun _ => .produces
  consumerPoint := fun _ => .waitsFull
  inserted := []
  removed := []

/-! ## The steps -/

section Steps

variable {k : Nat} {s s' : ProdCons}

/-- A step of a producer is a statement of `insertItem`, or it goes on outside of `insertItem` and
takes as many units as it leaves. -/
theorem producer_cases (stepped : s.producer k = some s') :
    (∃ point i itemMutex fullCount emptyCount,
      s' = { s with i, itemMutex, fullCount, emptyCount }.produce k point ∧
      s.producerPoint k ≠ .advances ∧ point ≠ .advances ∧
      emptyCount + point.room = s.emptyCount + (s.producerPoint k).room ∧
      fullCount + point.announcing = s.fullCount + (s.producerPoint k).announcing ∧
      itemMutex + point.inSection = s.itemMutex + (s.producerPoint k).inSection) ∨
    (∃ item, s.producerPoint k = .inserts item ∧
      s' = { s with
        buffer := s.buffer.setIfInBounds s.w (Int8.ofInt item)
        inserted := s.inserted ++ [item] }.produce k .advances) ∨
    (s.producerPoint k = .advances ∧
      s' = { s with w := (s.w + 1) % bufferSize }.produce k .signalsItem) := by
  unfold producer at stepped
  cases stands : s.producerPoint k with
  | produces | signalsItem | signalsFull =>
      rw [stands] at stepped
      obtain rfl := Option.some.inj stepped
      exact .inl ⟨_, _, _, _, _, rfl, nofun, by nofun, rfl, rfl, rfl⟩
  | waitsEmpty item =>
      rw [stands] at stepped
      dsimp only at stepped
      split at stepped
      · rename_i positive
        obtain rfl := Option.some.inj stepped
        exact .inl ⟨_, _, _, _, _, rfl, nofun, by nofun, Nat.sub_add_cancel positive, rfl, rfl⟩
      · cases stepped
  | waitsItem item =>
      rw [stands] at stepped
      dsimp only at stepped
      split at stepped
      · rename_i positive
        obtain rfl := Option.some.inj stepped
        exact .inl ⟨_, _, _, _, _, rfl, nofun, by nofun, rfl, rfl, Nat.sub_add_cancel positive⟩
      · cases stepped
  | inserts item =>
      rw [stands] at stepped
      exact .inr (.inl ⟨item, rfl, (Option.some.inj stepped).symm⟩)
  | advances =>
      rw [stands] at stepped
      exact .inr (.inr ⟨rfl, (Option.some.inj stepped).symm⟩)

/-- A step of a consumer is a statement of `removeItem`, or it goes on outside of `removeItem` and
takes as many units as it leaves. -/
theorem consumer_cases (stepped : s.consumer k = some s') :
    (∃ point itemMutex fullCount emptyCount,
      s' = { s with itemMutex, fullCount, emptyCount }.consume k point ∧
      (∀ result, point ≠ .advances result) ∧
      emptyCount + point.returning = s.emptyCount + (s.consumerPoint k).returning ∧
      fullCount + point.claimed = s.fullCount + (s.consumerPoint k).claimed ∧
      itemMutex + point.inSection = s.itemMutex + (s.consumerPoint k).inSection) ∨
    (s.consumerPoint k = .removes ∧ s' = s.consume k (.advances (s.buffer[s.r]?.getD 0))) ∨
    (∃ result, s.consumerPoint k = .advances result ∧
      s' = { s with
        r := (s.r + 1) % bufferSize
        removed := s.removed ++ [result.toInt] }.consume k .signalsItem) := by
  unfold consumer at stepped
  cases stands : s.consumerPoint k with
  | signalsItem | signalsEmpty =>
      rw [stands] at stepped
      obtain rfl := Option.some.inj stepped
      exact .inl ⟨_, _, _, _, rfl, by nofun, rfl, rfl, rfl⟩
  | waitsFull =>
      rw [stands] at stepped
      dsimp only at stepped
      split at stepped
      · rename_i positive
        obtain rfl := Option.some.inj stepped
        exact .inl ⟨_, _, _, _, rfl, by nofun, rfl, Nat.sub_add_cancel positive, rfl⟩
      · cases stepped
  | waitsItem =>
      rw [stands] at stepped
      dsimp only at stepped
      split at stepped
      · rename_i positive
        obtain rfl := Option.some.inj stepped
        exact .inl ⟨_, _, _, _, rfl, by nofun, rfl, rfl, Nat.sub_add_cancel positive⟩
      · cases stepped
  | removes =>
      rw [stands] at stepped
      exact .inr (.inl ⟨rfl, (Option.some.inj stepped).symm⟩)
  | advances result =>
      rw [stands] at stepped
      exact .inr (.inr ⟨result, rfl, (Option.some.inj stepped).symm⟩)

end Steps

/-! ## The semaphores -/

/-- What the semaphores and the threads hold, and how many items are in the buffer. -/
structure Counted (producers consumers : Nat) (s : ProdCons) : Prop where
  empty : s.emptyCount + tally producers ProducerPoint.room s.producerPoint +
    tally consumers ConsumerPoint.returning s.consumerPoint + s.inserted.length =
      bufferSize + s.removed.length
  full : s.fullCount + tally producers ProducerPoint.announcing s.producerPoint +
    tally consumers ConsumerPoint.claimed s.consumerPoint + s.removed.length = s.inserted.length
  mutex : s.itemMutex + tally producers ProducerPoint.inSection s.producerPoint +
    tally consumers ConsumerPoint.inSection s.consumerPoint = 1

namespace Counted

variable {producers consumers k : Nat} {s s' : ProdCons}

/-- A step of a producer that takes and leaves equal numbers of units. -/
theorem produce (counted : Counted producers consumers s) (inside : k < producers)
    {point : ProducerPoint} (goesOn : s'.producerPoint = Function.update s.producerPoint k point)
    (consumer : s'.consumerPoint = s.consumerPoint) (removed : s'.removed = s.removed)
    (empty : s'.emptyCount + point.room + s'.inserted.length =
      s.emptyCount + (s.producerPoint k).room + s.inserted.length)
    (full : s'.fullCount + point.announcing + s.inserted.length =
      s.fullCount + (s.producerPoint k).announcing + s'.inserted.length)
    (mutex : s'.itemMutex + point.inSection = s.itemMutex + (s.producerPoint k).inSection) :
    Counted producers consumers s' := by
  have room := tally_update inside ProducerPoint.room s.producerPoint point
  have announcing := tally_update inside ProducerPoint.announcing s.producerPoint point
  have inSection := tally_update inside ProducerPoint.inSection s.producerPoint point
  rw [← goesOn] at room announcing inSection
  obtain ⟨emptyBefore, fullBefore, mutexBefore⟩ := counted
  refine ⟨?_, ?_, ?_⟩
  · rw [consumer, removed]
    omega
  · rw [consumer, removed]
    omega
  · rw [consumer]
    omega

/-- A step of a consumer that takes and leaves equal numbers of units. -/
theorem consume (counted : Counted producers consumers s) (inside : k < consumers)
    {point : ConsumerPoint} (goesOn : s'.consumerPoint = Function.update s.consumerPoint k point)
    (producer : s'.producerPoint = s.producerPoint) (inserted : s'.inserted = s.inserted)
    (empty : s'.emptyCount + point.returning + s.removed.length =
      s.emptyCount + (s.consumerPoint k).returning + s'.removed.length)
    (full : s'.fullCount + point.claimed + s'.removed.length =
      s.fullCount + (s.consumerPoint k).claimed + s.removed.length)
    (mutex : s'.itemMutex + point.inSection = s.itemMutex + (s.consumerPoint k).inSection) :
    Counted producers consumers s' := by
  have claimed := tally_update inside ConsumerPoint.claimed s.consumerPoint point
  have returning := tally_update inside ConsumerPoint.returning s.consumerPoint point
  have inSection := tally_update inside ConsumerPoint.inSection s.consumerPoint point
  rw [← goesOn] at claimed returning inSection
  obtain ⟨emptyBefore, fullBefore, mutexBefore⟩ := counted
  refine ⟨?_, ?_, ?_⟩
  · rw [producer, inserted]
    omega
  · rw [producer, inserted]
    omega
  · rw [producer]
    omega

/-- Nothing is removed before it is inserted. -/
theorem removed_le (counted : Counted producers consumers s) :
    s.removed.length ≤ s.inserted.length := by
  have full := counted.full
  omega

/-- The buffer has room for what is in it. -/
theorem inserted_le (counted : Counted producers consumers s) :
    s.inserted.length ≤ s.removed.length + bufferSize := by
  have empty := counted.empty
  omega

/-- While a producer has `itemMutex` nobody else has it. -/
theorem producer_alone (counted : Counted producers consumers s) (inside : k < producers)
    (locked : (s.producerPoint k).inSection = 1) :
    (∀ j < producers, j ≠ k → (s.producerPoint j).inSection = 0) ∧
      ∀ j < consumers, (s.consumerPoint j).inSection = 0 := by
  have mutex := counted.mutex
  have mine := le_tally inside ProducerPoint.inSection s.producerPoint
  refine ⟨fun j within other => ?_, fun j within => ?_⟩
  · have both := add_le_tally inside within other ProducerPoint.inSection s.producerPoint
    omega
  · have theirs := le_tally within ConsumerPoint.inSection s.consumerPoint
    omega

/-- While a consumer has `itemMutex` nobody else has it. -/
theorem consumer_alone (counted : Counted producers consumers s) (inside : k < consumers)
    (locked : (s.consumerPoint k).inSection = 1) :
    (∀ j < producers, (s.producerPoint j).inSection = 0) ∧
      ∀ j < consumers, j ≠ k → (s.consumerPoint j).inSection = 0 := by
  have mutex := counted.mutex
  have mine := le_tally inside ConsumerPoint.inSection s.consumerPoint
  refine ⟨fun j within => ?_, fun j within other => ?_⟩
  · have theirs := le_tally within ProducerPoint.inSection s.producerPoint
    omega
  · have both := add_le_tally inside within other ConsumerPoint.inSection s.consumerPoint
    omega

/-- A step of a producer. -/
theorem producer (counted : Counted producers consumers s) (inside : k < producers)
    (stepped : s.producer k = some s') : Counted producers consumers s' := by
  rcases producer_cases stepped with ⟨point, i, itemMutex, fullCount, emptyCount, rfl, -, -,
    empty, full, mutex⟩ | ⟨item, stands, rfl⟩ | ⟨stands, rfl⟩
  · exact counted.produce inside rfl rfl rfl (congrArg (· + s.inserted.length) empty)
      (congrArg (· + s.inserted.length) full) mutex
  · refine counted.produce inside rfl rfl rfl ?_ ?_ (by rw [stands]; rfl)
    all_goals
      rw [stands]
      simp +arith [ProdCons.produce, ProducerPoint.room, ProducerPoint.announcing]
  · exact counted.produce inside rfl rfl rfl (by rw [stands]; rfl) (by rw [stands]; rfl)
      (by rw [stands]; rfl)

/-- A step of a consumer. -/
theorem consumer (counted : Counted producers consumers s) (inside : k < consumers)
    (stepped : s.consumer k = some s') : Counted producers consumers s' := by
  rcases consumer_cases stepped with ⟨point, itemMutex, fullCount, emptyCount, rfl, -,
    empty, full, mutex⟩ | ⟨stands, rfl⟩ | ⟨result, stands, rfl⟩
  · exact counted.consume inside rfl rfl rfl (congrArg (· + s.removed.length) empty)
      (congrArg (· + s.removed.length) full) mutex
  · exact counted.consume inside rfl rfl rfl (by rw [stands]; rfl) (by rw [stands]; rfl)
      (by rw [stands]; rfl)
  · refine counted.consume inside rfl rfl rfl ?_ ?_ (by rw [stands]; rfl)
    all_goals
      rw [stands]
      simp +arith [ProdCons.consume, ConsumerPoint.returning, ConsumerPoint.claimed]

end Counted

/-! ## The buffer -/

/-- The buffer holds the items that were inserted and not removed, each one as a `char`. -/
structure Buffered (producers consumers : Nat) (s : ProdCons) : Prop where
  removed : s.removed =
    (s.inserted.take s.removed.length).map fun item => (Int8.ofInt item).toInt
  window : window s.buffer s.removed.length (s.inserted.length - s.removed.length) =
    (s.inserted.drop s.removed.length).map Int8.ofInt
  r : s.r = s.removed.length % bufferSize
  w : (∀ k < producers, s.producerPoint k ≠ .advances) → s.w = s.inserted.length % bufferSize
  advances : ∀ k < producers, s.producerPoint k = .advances →
    (s.w + 1) % bufferSize = s.inserted.length % bufferSize
  result : ∀ k < consumers, ∀ result, s.consumerPoint k = .advances result →
    s.inserted[s.removed.length]?.map Int8.ofInt = some result

namespace Buffered

variable {producers consumers k : Nat} {s s' : ProdCons}

/-- A producer that goes on outside of `insertItem`. -/
theorem produce (buffered : Buffered producers consumers s) {point : ProducerPoint}
    (leaves : s.producerPoint k ≠ .advances) (enters : point ≠ .advances) (i : Int)
    (itemMutex fullCount emptyCount : Nat) : Buffered producers consumers
      ({ s with i, itemMutex, fullCount, emptyCount }.produce k point) := by
  have same : ∀ j, Function.update s.producerPoint k point j = .advances ↔
      s.producerPoint j = .advances := by
    intro j
    rw [Function.update_apply]
    split
    · rename_i here
      rw [here]
      exact iff_of_false enters leaves
    · exact Iff.rfl
  refine ⟨buffered.removed, buffered.window, buffered.r, fun nobody => ?_,
    fun j within stands => ?_, buffered.result⟩
  · exact buffered.w fun j within stands => nobody j within ((same j).mpr stands)
  · exact buffered.advances j within ((same j).mp stands)

/-- A consumer that goes on outside of `removeItem`. -/
theorem consume (buffered : Buffered producers consumers s) {point : ConsumerPoint}
    (enters : ∀ result, point ≠ .advances result) (itemMutex fullCount emptyCount : Nat) :
    Buffered producers consumers
      ({ s with itemMutex, fullCount, emptyCount }.consume k point) := by
  refine ⟨buffered.removed, buffered.window, buffered.r, buffered.w, buffered.advances,
    fun j within result stands => ?_⟩
  simp only [ProdCons.consume, Function.update_apply] at stands
  split at stands
  · exact absurd stands (enters result)
  · exact buffered.result j within result stands

/-- A producer writes its item behind the others. -/
theorem inserts (counted : Counted producers consumers s)
    (buffered : Buffered producers consumers s) (inside : k < producers) {item : Int}
    (stands : s.producerPoint k = .inserts item) : Buffered producers consumers
      ({ s with
        buffer := s.buffer.setIfInBounds s.w (Int8.ofInt item)
        inserted := s.inserted ++ [item] }.produce k .advances) := by
  obtain ⟨noProducer, noConsumer⟩ := counted.producer_alone inside (by rw [stands]; rfl)
  have w : s.w = s.inserted.length % bufferSize := by
    refine buffered.w fun j within advances => ?_
    by_cases here : j = k
    · rw [here, stands] at advances
      cases advances
    · have outside := noProducer j within here
      rw [advances] at outside
      cases outside
  have below := counted.removed_le
  have room : s.inserted.length - s.removed.length < bufferSize := by
    have taken := le_tally inside ProducerPoint.room s.producerPoint
    rw [stands] at taken
    have empty := counted.empty
    simp only [ProducerPoint.room] at taken
    omega
  refine ⟨?_, ?_, buffered.r, fun nobody => ?_, fun j within advances => ?_,
    fun j within result advances => ?_⟩
  · simp only [ProdCons.produce]
    rw [List.take_append_of_le_length below]
    exact buffered.removed
  · have behind : s.w =
        (s.removed.length + (s.inserted.length - s.removed.length)) % bufferSize := by
      rw [Nat.add_sub_cancel' below]
      exact w
    have count : (s.inserted ++ [item]).length - s.removed.length =
        s.inserted.length - s.removed.length + 1 := by
      rw [List.length_append, List.length_singleton]
      omega
    simp only [ProdCons.produce]
    rw [count, behind, window_set_next room, buffered.window, List.drop_append_of_le_length below,
      List.map_append]
    rfl
  · exact absurd (Function.update_self ..) (nobody k inside)
  · simp [ProdCons.produce, w]
  · have outside := noConsumer j within
    rw [show s.consumerPoint j = .advances result from advances] at outside
    cases outside

/-- A producer moves `w` behind its item. -/
theorem advances_w (counted : Counted producers consumers s)
    (buffered : Buffered producers consumers s) (inside : k < producers)
    (stands : s.producerPoint k = .advances) : Buffered producers consumers
      ({ s with w := (s.w + 1) % bufferSize }.produce k .signalsItem) := by
  have alone := (counted.producer_alone inside (by rw [stands]; rfl)).1
  refine ⟨buffered.removed, buffered.window, buffered.r, fun _ => buffered.advances k inside stands,
    fun j within advances => ?_, buffered.result⟩
  simp only [ProdCons.produce, Function.update_apply] at advances
  split at advances
  · cases advances
  · rename_i other
    have outside := alone j within other
    rw [advances] at outside
    cases outside

/-- The items that are in the buffer start with the oldest one. -/
theorem oldest (buffered : Buffered producers consumers s)
    (some : s.removed.length < s.inserted.length) :
    s.inserted[s.removed.length]?.map Int8.ofInt = .some (cell s.buffer s.removed.length) ∧
      Foundation.window s.buffer (s.removed.length + 1)
        (s.inserted.length - (s.removed.length + 1)) =
          (s.inserted.drop (s.removed.length + 1)).map Int8.ofInt := by
  have cells := buffered.window
  rw [show s.inserted.length - s.removed.length =
      s.inserted.length - (s.removed.length + 1) + 1 by omega, Foundation.window,
    List.drop_eq_getElem_cons some, List.map_cons] at cells
  obtain ⟨first, rest⟩ := List.cons.inj cells
  rw [List.getElem?_eq_getElem some, Option.map_some, first]
  exact ⟨rfl, rest⟩

/-- A consumer reads the oldest item. -/
theorem removes (counted : Counted producers consumers s)
    (buffered : Buffered producers consumers s) (inside : k < consumers)
    (stands : s.consumerPoint k = .removes) : Buffered producers consumers
      (s.consume k (.advances (s.buffer[s.r]?.getD 0))) := by
  have more : s.removed.length < s.inserted.length := by
    have claimed := le_tally inside ConsumerPoint.claimed s.consumerPoint
    rw [stands] at claimed
    have full := counted.full
    simp only [ConsumerPoint.claimed] at claimed
    omega
  refine ⟨buffered.removed, buffered.window, buffered.r, buffered.w, buffered.advances,
    fun j within result advances => ?_⟩
  simp only [ProdCons.consume, Function.update_apply] at advances
  split at advances
  · obtain rfl := ConsumerPoint.advances.inj advances
    rw [buffered.r, getElem?_mod, Option.getD_some]
    exact (buffered.oldest more).1
  · exact buffered.result j within result advances

/-- A consumer moves `r` behind the item it returns. -/
theorem advances_r (counted : Counted producers consumers s)
    (buffered : Buffered producers consumers s) (inside : k < consumers) {result : Int8}
    (stands : s.consumerPoint k = .advances result) : Buffered producers consumers
      ({ s with
        r := (s.r + 1) % bufferSize
        removed := s.removed ++ [result.toInt] }.consume k .signalsItem) := by
  have alone := (counted.consumer_alone inside (by rw [stands]; rfl)).2
  obtain ⟨item, here, rfl⟩ := Option.map_eq_some_iff.mp (buffered.result k inside result stands)
  have more := (List.getElem?_eq_some_iff.mp here).choose
  have length : (s.removed ++ [(Int8.ofInt item).toInt]).length = s.removed.length + 1 :=
    List.length_append
  refine ⟨?_, ?_, ?_, buffered.w, buffered.advances, fun j within result advances => ?_⟩
  · simp only [ProdCons.consume]
    rw [length, List.take_add_one, here, Option.toList_some, List.map_append, ← buffered.removed]
    rfl
  · simp only [ProdCons.consume]
    rw [length]
    exact (buffered.oldest more).2
  · simp only [ProdCons.consume]
    rw [length, buffered.r, Nat.mod_add_mod]
  · simp only [ProdCons.consume, Function.update_apply] at advances
    split at advances
    · cases advances
    · rename_i other
      have outside := alone j within other
      rw [advances] at outside
      cases outside

/-- A step of a producer. -/
theorem producer (counted : Counted producers consumers s)
    (buffered : Buffered producers consumers s) (inside : k < producers)
    (stepped : s.producer k = some s') : Buffered producers consumers s' := by
  rcases producer_cases stepped with ⟨point, i, itemMutex, fullCount, emptyCount, rfl, leaves,
    enters, -⟩ | ⟨item, stands, rfl⟩ | ⟨stands, rfl⟩
  · exact buffered.produce leaves enters i itemMutex fullCount emptyCount
  · exact buffered.inserts counted inside stands
  · exact buffered.advances_w counted inside stands

/-- A step of a consumer. -/
theorem consumer (counted : Counted producers consumers s)
    (buffered : Buffered producers consumers s) (inside : k < consumers)
    (stepped : s.consumer k = some s') : Buffered producers consumers s' := by
  rcases consumer_cases stepped with ⟨point, itemMutex, fullCount, emptyCount, rfl, enters, -⟩ |
    ⟨stands, rfl⟩ | ⟨result, stands, rfl⟩
  · exact buffered.consume enters itemMutex fullCount emptyCount
  · exact buffered.removes counted inside stands
  · exact buffered.advances_r counted inside stands

end Buffered

/-! ## Runs -/

variable {producers consumers : Nat} {s s' final : ProdCons}

theorem initial_counted (producers consumers : Nat) : Counted producers consumers initial where
  empty := by
    dsimp only [initial]
    rw [tally_const, tally_const]
    rfl
  full := by
    dsimp only [initial]
    rw [tally_const, tally_const]
    rfl
  mutex := by
    dsimp only [initial]
    rw [tally_const, tally_const]
    rfl

theorem initial_buffered (producers consumers : Nat) : Buffered producers consumers initial where
  removed := rfl
  window := rfl
  r := rfl
  w _ := rfl
  advances _ _ stands := by cases stands
  result _ _ _ stands := by cases stands

/-- One step of one of the threads. -/
theorem step_kept (kept : Counted producers consumers s ∧ Buffered producers consumers s)
    {turn : Turn} (stepped : s.step producers consumers turn = some s') :
    Counted producers consumers s' ∧ Buffered producers consumers s' := by
  obtain ⟨counted, buffered⟩ := kept
  cases turn with
  | producer k =>
      rw [step] at stepped
      split at stepped
      · rename_i inside
        exact ⟨counted.producer inside stepped, buffered.producer counted inside stepped⟩
      · cases stepped
  | consumer k =>
      rw [step] at stepped
      split at stepped
      · rename_i inside
        exact ⟨counted.consumer inside stepped, buffered.consumer counted inside stepped⟩
      · cases stepped

/-- An `int` that is cut to a `char` and extended again is the same for the values of `char`. -/
theorem toInt_ofInt_eq_iff (item : Int) :
    (Int8.ofInt item).toInt = item ↔ -128 ≤ item ∧ item ≤ 127 := by
  constructor
  · intro same
    have low := (Int8.ofInt item).le_toInt
    have high := (Int8.ofInt item).toInt_lt
    omega
  · rintro ⟨low, high⟩
    exact Int8.toInt_ofInt_of_le (by omega) (by omega)

/-- For any numbers of producers and consumers and in any order of their steps, the consumers
obtain the items in the order of their insertion, exactly as long as every item that was removed
is a value of type `char`. No more than `bufferSize` items are inserted and not removed. -/
theorem items_in_order_iff {turns : List Turn}
    (ran : run (step producers consumers) initial turns = some final) :
    (final.removed = final.inserted.take final.removed.length ↔
      ∀ item ∈ final.inserted.take final.removed.length, -128 ≤ item ∧ item ≤ 127) ∧
    final.removed.length ≤ final.inserted.length ∧
    final.inserted.length ≤ final.removed.length + bufferSize := by
  obtain ⟨counted, buffered⟩ : Counted producers consumers final ∧
      Buffered producers consumers final :=
    run_invariant (fun _ _ _ kept stepped => step_kept kept stepped)
      ⟨initial_counted producers consumers, initial_buffered producers consumers⟩ ran
  refine ⟨?_, counted.removed_le, counted.inserted_le⟩
  have whole : final.removed = final.inserted.take final.removed.length ↔
      ((final.inserted.take final.removed.length).map fun item => (Int8.ofInt item).toInt) =
        (final.inserted.take final.removed.length).map id := by
    rw [← buffered.removed, List.map_id]
  rw [whole, List.map_inj_left]
  exact forall₂_congr fun item _ => toInt_ofInt_eq_iff item

/-- Two producers and a consumer: the second producer inserts while the first one waits for
`itemMutex` with the item before it. -/
theorem items_in_order_two_producers : ∃ final,
    run (step 2 1) initial [.producer 0, .producer 1, .producer 0, .producer 1, .producer 1,
      .producer 1, .producer 1, .producer 1, .producer 1, .consumer 0, .consumer 0, .consumer 0,
      .consumer 0] = some final ∧
    ((final.removed = final.inserted.take final.removed.length ↔
      ∀ item ∈ final.inserted.take final.removed.length, -128 ≤ item ∧ item ≤ 127) ∧
    final.removed.length ≤ final.inserted.length ∧
    final.inserted.length ≤ final.removed.length + bufferSize) :=
  Exists.imp (fun _ ran => ⟨ran, items_in_order_iff ran⟩) ⟨_, rfl⟩

/-- A producer and a consumer that take turns: the item 128 comes back as −128. -/
theorem item_128_changes :
    ∃ final ∈ run (step 1 1) initial (List.replicate 129
      (List.replicate 7 (.producer 0) ++ List.replicate 6 (.consumer 0))).flatten,
    final.inserted[128]? = some 128 ∧ final.removed[128]? = some (-128) ∧
    final.removed ≠ final.inserted.take final.removed.length := by
  decide +kernel

end ProdCons

end SistemasOperativos.Userland
