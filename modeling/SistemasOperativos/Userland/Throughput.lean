import SistemasOperativos.Userland.ProducersConsumers

/-!
# The producers and consumers never get stuck

As long as there is a producer and a consumer, one of the threads can always go on, whatever
the order of the steps was (`never_stuck_iff`). They cannot go round in circles either: every
thread is a fixed number of steps away from inserting or removing an item, and the buffer bounds
what is inserted and not removed, so a run that is long enough has removed as many items as one
likes (`run_length_le`).
-/

namespace SistemasOperativos.Userland

open SistemasOperativos.Foundation SistemasOperativos.Semantics

/-- The steps from here to the next item in the buffer. -/
def ProducerPoint.remaining : ProducerPoint → Nat
  | .produces => 3
  | .waitsEmpty _ => 2
  | .waitsItem _ => 1
  | .inserts _ => 0
  | .advances => 6
  | .signalsItem => 5
  | .signalsFull => 4

/-- The steps from here to the next item that `removeItem` returns. -/
def ConsumerPoint.remaining : ConsumerPoint → Nat
  | .waitsFull => 3
  | .waitsItem => 2
  | .removes => 1
  | .advances _ => 0
  | .signalsItem => 5
  | .signalsEmpty => 4

namespace ProdCons

/-- The steps that the threads are away from their next items. -/
def remaining (producers consumers : Nat) (s : ProdCons) : Nat :=
  tally producers ProducerPoint.remaining s.producerPoint +
    tally consumers ConsumerPoint.remaining s.consumerPoint

section Length

variable {producers consumers k : Nat} {s s' final : ProdCons} {turns : List Turn}

/-- A step of a producer brings it nearer to its next item, or it inserts one. -/
theorem producer_remaining (stepped : s.producer k = some s') :
    ∃ point, s'.producerPoint = Function.update s.producerPoint k point ∧
      s'.consumerPoint = s.consumerPoint ∧ s'.removed = s.removed ∧
      point.remaining + 1 + 7 * s.inserted.length =
        (s.producerPoint k).remaining + 7 * s'.inserted.length := by
  unfold producer at stepped
  cases stands : s.producerPoint k with
  | produces | advances | signalsItem | signalsFull =>
      rw [stands] at stepped
      obtain rfl := Option.some.inj stepped
      exact ⟨_, rfl, rfl, rfl, rfl⟩
  | waitsEmpty item | waitsItem item =>
      rw [stands] at stepped
      dsimp only at stepped
      split at stepped
      · obtain rfl := Option.some.inj stepped
        exact ⟨_, rfl, rfl, rfl, rfl⟩
      · cases stepped
  | inserts item =>
      rw [stands] at stepped
      obtain rfl := Option.some.inj stepped
      refine ⟨_, rfl, rfl, rfl, ?_⟩
      simp only [produce, ProducerPoint.remaining, List.length_append, List.length_singleton]
      omega

/-- A step of a consumer brings it nearer to its next item, or it removes one. -/
theorem consumer_remaining (stepped : s.consumer k = some s') :
    ∃ point, s'.consumerPoint = Function.update s.consumerPoint k point ∧
      s'.producerPoint = s.producerPoint ∧ s'.inserted = s.inserted ∧
      point.remaining + 1 + 6 * s.removed.length =
        (s.consumerPoint k).remaining + 6 * s'.removed.length := by
  unfold consumer at stepped
  cases stands : s.consumerPoint k with
  | removes | signalsItem | signalsEmpty =>
      rw [stands] at stepped
      obtain rfl := Option.some.inj stepped
      exact ⟨_, rfl, rfl, rfl, rfl⟩
  | waitsFull | waitsItem =>
      rw [stands] at stepped
      dsimp only at stepped
      split at stepped
      · obtain rfl := Option.some.inj stepped
        exact ⟨_, rfl, rfl, rfl, rfl⟩
      · cases stepped
  | advances result =>
      rw [stands] at stepped
      obtain rfl := Option.some.inj stepped
      refine ⟨_, rfl, rfl, rfl, ?_⟩
      simp only [consume, ConsumerPoint.remaining, List.length_append, List.length_singleton]
      omega

/-- Every step counts. -/
theorem step_remaining {turn : Turn} (stepped : s.step producers consumers turn = some s') :
    s'.remaining producers consumers + 1 + 7 * s.inserted.length + 6 * s.removed.length =
      s.remaining producers consumers + 7 * s'.inserted.length + 6 * s'.removed.length := by
  cases turn with
  | producer k =>
      rw [step] at stepped
      split at stepped
      · rename_i inside
        obtain ⟨point, goesOn, consumer, removed, nearer⟩ := producer_remaining stepped
        have moved := tally_update inside ProducerPoint.remaining s.producerPoint point
        rw [remaining, remaining, goesOn, consumer, removed]
        omega
      · cases stepped
  | consumer k =>
      rw [step] at stepped
      split at stepped
      · rename_i inside
        obtain ⟨point, goesOn, producer, inserted, nearer⟩ := consumer_remaining stepped
        have moved := tally_update inside ConsumerPoint.remaining s.consumerPoint point
        rw [remaining, remaining, goesOn, producer, inserted]
        omega
      · cases stepped

/-- The steps of a run are those that led to its items, and those on the way to the next ones. -/
theorem run_remaining (ran : run (step producers consumers) s turns = some final) :
    final.remaining producers consumers + turns.length + 7 * s.inserted.length +
        6 * s.removed.length =
      s.remaining producers consumers + 7 * final.inserted.length + 6 * final.removed.length := by
  induction turns generalizing s with
  | nil =>
      cases ran
      rfl
  | cons turn turns ih =>
      obtain ⟨next, stepped, rest⟩ := run_cons_eq_some.mp ran
      have first := step_remaining stepped
      have later := ih rest
      rw [List.length_cons]
      omega

theorem run_counted (ran : run (step producers consumers) initial turns = some final) :
    Counted producers consumers final :=
  (run_invariant (fun _ _ _ kept stepped => step_kept kept stepped)
    ⟨initial_counted producers consumers, initial_buffered producers consumers⟩ ran).1

/-- The steps of a run by the items inserted and removed. -/
theorem run_length (ran : run (step producers consumers) initial turns = some final) :
    turns.length ≤
      7 * final.inserted.length + 6 * final.removed.length + 3 * (producers + consumers) := by
  have steps := run_remaining ran
  have start : initial.remaining producers consumers = 3 * (producers + consumers) := by
    rw [remaining, initial, tally_const, tally_const, ProducerPoint.remaining,
      ConsumerPoint.remaining]
    omega
  have none : initial.inserted.length = 0 ∧ initial.removed.length = 0 := ⟨rfl, rfl⟩
  omega

/-- In every run the number of items removed grows with the number of steps. -/
theorem run_length_le (ran : run (step producers consumers) initial turns = some final) :
    turns.length ≤
      13 * final.removed.length + 7 * bufferSize + 3 * (producers + consumers) := by
  have steps := run_length ran
  have room := (run_counted ran).inserted_le
  omega

end Length

/-! ## Some thread can go on -/

section Stuck

variable {producers consumers k : Nat} {s s' final : ProdCons} {turns : List Turn}

/-- A producer that cannot go on waits for a semaphore. -/
theorem producer_eq_none (stuck : s.producer k = none) :
    (∃ item, s.producerPoint k = .waitsEmpty item ∧ s.emptyCount = 0) ∨
      ∃ item, s.producerPoint k = .waitsItem item ∧ s.itemMutex = 0 := by
  unfold producer at stuck
  cases stands : s.producerPoint k with
  | waitsEmpty item =>
      rw [stands] at stuck
      dsimp only at stuck
      split at stuck
      · cases stuck
      · exact .inl ⟨item, rfl, by omega⟩
  | waitsItem item =>
      rw [stands] at stuck
      dsimp only at stuck
      split at stuck
      · cases stuck
      · exact .inr ⟨item, rfl, by omega⟩
  | produces | inserts | advances | signalsItem | signalsFull =>
      rw [stands] at stuck
      cases stuck

/-- A consumer that cannot go on waits for a semaphore. -/
theorem consumer_eq_none (stuck : s.consumer k = none) :
    (s.consumerPoint k = .waitsFull ∧ s.fullCount = 0) ∨
      s.consumerPoint k = .waitsItem ∧ s.itemMutex = 0 := by
  unfold consumer at stuck
  cases stands : s.consumerPoint k with
  | waitsFull =>
      rw [stands] at stuck
      dsimp only at stuck
      split at stuck
      · cases stuck
      · exact .inl ⟨rfl, by omega⟩
  | waitsItem =>
      rw [stands] at stuck
      dsimp only at stuck
      split at stuck
      · cases stuck
      · exact .inr ⟨rfl, by omega⟩
  | removes | advances | signalsItem | signalsEmpty =>
      rw [stands] at stuck
      cases stuck

/-- The semaphores never make all threads wait: who has `itemMutex` can go on, and the buffer is
not empty and full at once. -/
theorem Counted.goes_on (counted : Counted producers consumers s) (producing : 0 < producers)
    (consuming : 0 < consumers) : ∃ turn next, s.step producers consumers turn = some next := by
  by_contra nobody
  have producer : ∀ j < producers, s.producer j = none := by
    intro j inside
    by_contra goes
    obtain ⟨next, stepped⟩ := Option.ne_none_iff_exists'.mp goes
    exact nobody ⟨.producer j, next, (if_pos inside).trans stepped⟩
  have consumer : ∀ j < consumers, s.consumer j = none := by
    intro j inside
    by_contra goes
    obtain ⟨next, stepped⟩ := Option.ne_none_iff_exists'.mp goes
    exact nobody ⟨.consumer j, next, (if_pos inside).trans stepped⟩
  have outside : s.itemMutex = 1 := by
    have noProducer : tally producers ProducerPoint.inSection s.producerPoint = 0 := by
      refine tally_eq_zero fun j inside => ?_
      rcases producer_eq_none (producer j inside) with ⟨item, stands, -⟩ | ⟨item, stands, -⟩
      all_goals rw [stands]; rfl
    have noConsumer : tally consumers ConsumerPoint.inSection s.consumerPoint = 0 := by
      refine tally_eq_zero fun j inside => ?_
      rcases consumer_eq_none (consumer j inside) with ⟨stands, -⟩ | ⟨stands, -⟩
      all_goals rw [stands]; rfl
    have mutex := counted.mutex
    omega
  -- With `itemMutex` free the producers wait for room and the consumers for an item.
  have waitsEmpty : ∀ j < producers,
      ∃ item, s.producerPoint j = .waitsEmpty item ∧ s.emptyCount = 0 := by
    intro j inside
    refine (producer_eq_none (producer j inside)).resolve_right ?_
    rintro ⟨item, -, locked⟩
    omega
  have waitsFull : ∀ j < consumers, s.consumerPoint j = .waitsFull ∧ s.fullCount = 0 := by
    intro j inside
    refine (consumer_eq_none (consumer j inside)).resolve_right ?_
    rintro ⟨-, locked⟩
    omega
  have room : tally producers ProducerPoint.room s.producerPoint = 0 := by
    refine tally_eq_zero fun j inside => ?_
    obtain ⟨item, stands, -⟩ := waitsEmpty j inside
    rw [stands]
    rfl
  have returning : tally consumers ConsumerPoint.returning s.consumerPoint = 0 := by
    refine tally_eq_zero fun j inside => ?_
    rw [(waitsFull j inside).1]
    rfl
  have announcing : tally producers ProducerPoint.announcing s.producerPoint = 0 := by
    refine tally_eq_zero fun j inside => ?_
    obtain ⟨item, stands, -⟩ := waitsEmpty j inside
    rw [stands]
    rfl
  have claimed : tally consumers ConsumerPoint.claimed s.consumerPoint = 0 := by
    refine tally_eq_zero fun j inside => ?_
    rw [(waitsFull j inside).1]
    rfl
  obtain ⟨-, -, noRoom⟩ := waitsEmpty 0 producing
  have noItem := (waitsFull 0 consuming).2
  have empty := counted.empty
  have full := counted.full
  rw [bufferSize] at empty
  omega

/-- Where nobody ever gets stuck there are runs of every length. -/
theorem exists_run (goesOn : ∀ turns s, run (step producers consumers) initial turns = some s →
    ∃ turn next, s.step producers consumers turn = some next) (n : Nat) :
    ∃ turns final, turns.length = n ∧
      run (step producers consumers) initial turns = some final := by
  induction n with
  | zero => exact ⟨[], initial, rfl, rfl⟩
  | succ n ih =>
      obtain ⟨turns, s, length, ran⟩ := ih
      obtain ⟨turn, next, stepped⟩ := goesOn turns s ran
      refine ⟨turns ++ [turn], next, by rw [List.length_append, length]; rfl, ?_⟩
      exact run_append ran (run_cons_eq_some.mpr ⟨next, stepped, rfl⟩)

/-- Without producers nothing is inserted, and without consumers nothing is removed. -/
theorem run_idle (ran : run (step producers consumers) initial turns = some final) :
    (producers = 0 → final.inserted = []) ∧ (consumers = 0 → final.removed = []) := by
  have preserved : ∀ (s : ProdCons) (turn : Turn) (next : ProdCons),
      ((producers = 0 → s.inserted = []) ∧ (consumers = 0 → s.removed = [])) →
      s.step producers consumers turn = some next →
      (producers = 0 → next.inserted = []) ∧ (consumers = 0 → next.removed = []) := by
    rintro s turn next ⟨inserted, removed⟩ stepped
    cases turn with
    | producer k =>
        rw [step] at stepped
        split at stepped
        · obtain ⟨point, -, -, same, -⟩ := producer_remaining stepped
          exact ⟨fun none => by omega, fun none => same.trans (removed none)⟩
        · cases stepped
    | consumer k =>
        rw [step] at stepped
        split at stepped
        · obtain ⟨point, -, -, same, -⟩ := consumer_remaining stepped
          exact ⟨fun none => same.trans (inserted none), fun none => by omega⟩
        · cases stepped
  exact run_invariant preserved ⟨fun _ => rfl, fun _ => rfl⟩ ran

/-- In every state that is reached some thread can go on, exactly when there are producers and
consumers. -/
theorem never_stuck_iff (producers consumers : Nat) :
    (∀ turns s, run (step producers consumers) initial turns = some s →
      ∃ turn next, s.step producers consumers turn = some next) ↔
      0 < producers ∧ 0 < consumers := by
  constructor
  · intro goesOn
    obtain ⟨turns, final, length, ran⟩ :=
      exists_run goesOn (7 * bufferSize + 3 * (producers + consumers) + 1)
    have steps := run_length ran
    have counted := run_counted ran
    have below := counted.removed_le
    have room := counted.inserted_le
    obtain ⟨inserted, removed⟩ := run_idle ran
    refine ⟨Nat.pos_of_ne_zero fun none => ?_, Nat.pos_of_ne_zero fun none => ?_⟩
    · rw [inserted none, List.length_nil] at steps below
      omega
    · rw [removed none, List.length_nil] at steps room
      omega
  · rintro ⟨producing, consuming⟩ turns s ran
    exact (run_counted ran).goes_on producing consuming

/-- A producer and a consumer that take turns. -/
theorem run_length_le_turns : ∃ final, run (step 1 1) initial
      [.producer 0, .producer 0, .producer 0, .producer 0, .producer 0, .producer 0, .producer 0,
        .consumer 0, .consumer 0, .consumer 0, .consumer 0] = some final ∧
      11 ≤ 13 * final.removed.length + 7 * bufferSize + 3 * (1 + 1) :=
  Exists.imp (fun _ ran => ⟨ran, run_length_le ran⟩) ⟨_, rfl⟩

end Stuck

end ProdCons

end SistemasOperativos.Userland
