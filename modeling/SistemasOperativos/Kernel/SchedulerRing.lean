import SistemasOperativos.Foundation.Ring
import SistemasOperativos.Kernel.SchedulerEffects
import SistemasOperativos.Semantics.Run

/-!
# The ring of processes

Creating processes, removing them and switching between them keeps the slots
that are reached from the current one a ring of `cardinal_processes` slots, one
for each process created and not removed. `Linked` is the ring as a list,
`Stored` says that the slots and processes in use lie in different pages of the
page allocator, so that a new slot is none of them.
-/

namespace SistemasOperativos.Kernel

open SistemasOperativos.Foundation SistemasOperativos.Semantics

namespace Scheduler

/-- The page allocator and the blocks it handed out. -/
abbrev heapRun (s : Scheduler) (blocks : List Block) : HeapRun := ⟨s.buddyArray, blocks⟩

/-! ## The ring -/

/-- The slots of the ring, from the current one on, hold the processes of `live`. -/
structure Linked (s : Scheduler) (live : List Int) (ring : List Nat) : Prop where
  closed : Ring s.next s.current ring
  cardinal : s.cardinal_processes = ring.length
  pids : (ring.map s.pidOf).Perm live
  distinct : live.Nodup
  init : 0 ∈ live

/-- The slots made so far and their processes lie in pages of their own, and
their pids are different and below the next one. -/
structure Stored (s : Scheduler) (slots : List Nat) (blocks : List Block) : Prop where
  consistent : Consistent (s.heapRun blocks)
  slot : ∀ a ∈ slots, ⟨a, 1⟩ ∈ blocks
  process : ∀ a ∈ slots, ⟨(s.slot a).process, 1⟩ ∈ blocks
  pid : ∀ a ∈ slots, 0 ≤ s.pidOf a ∧ s.pidOf a < s.pid
  distinct : ∀ a ∈ slots, ∀ b ∈ slots, s.pidOf a = s.pidOf b → a = b
  counter : 0 ≤ s.pid ∧ 5 * s.pid ≤ blocks.length

/-- The processes of `live` form the ring, and `slots` are the slots made so far. -/
def Sound (s : Scheduler) (live : List Int) (slots : List Nat) : Prop :=
  ∃ ring blocks, Linked s live ring ∧ Stored s slots blocks ∧ ring ⊆ slots

section Invariant

variable {s s' : Scheduler} {live : List Int} {ring slots : List Nat} {blocks : List Block}

/-- A slot is not at the null address. -/
theorem Stored.present (stored : Stored s slots blocks) {a : Nat} (member : a ∈ slots) :
    a ≠ NULL := by
  rintro rfl
  exact absurd (stored.consistent.placed _ (stored.slot _ member)).page_positive (Nat.lt_irrefl 0)

/-- There are far fewer processes than values of the pid counter. -/
theorem Stored.counter_bound (stored : Stored s slots blocks) :
    toInt32 (s.pid + 1) = s.pid + 1 := by
  have bound : blocks.length ≤ 2048 := stored.consistent.length_le
  obtain ⟨low, high⟩ := stored.counter
  exact toInt32_of_range (by omega) (by omega)

/-- Slots stay stored by an operation that leaves what is in them. -/
theorem Stored.same (stored : Stored s slots blocks) (same : SamePages s s') :
    Stored s' slots blocks := by
  refine ⟨?_, stored.slot, ?_, ?_, ?_, ?_⟩
  · rw [heapRun, same.buddyArray]
    exact stored.consistent
  · intro a member
    rw [same.process]
    exact stored.process a member
  · rw [same.pidOf, same.counter]
    exact stored.pid
  · rw [same.pidOf]
    exact stored.distinct
  · rw [same.counter]
    exact stored.counter

/-- The pids do not change where the ring does not, and neither do the slots
reached from one of them. -/
theorem Linked.same (linked : Linked s live ring) (same : SameLinks s s')
    (current : s'.current ∈ ring) : ∃ ring', Linked s' live ring' ∧ ring'.Perm ring := by
  obtain ⟨ring', turned, perm⟩ := linked.closed.rotate current
  rw [← same.next] at turned
  refine ⟨ring', ⟨turned, ?_, ?_, linked.distinct, linked.init⟩, perm⟩
  · rw [same.cardinal, linked.cardinal, perm.length_eq]
  · rw [same.pidOf]
    exact (perm.map _).trans linked.pids

/-- Pids of processes of the ring tell its slots apart. -/
theorem Linked.eq_of_pidOf (linked : Linked s live ring) {a b : Nat} (first : a ∈ ring)
    (second : b ∈ ring) (same : s.pidOf a = s.pidOf b) : a = b :=
  List.inj_on_of_nodup_map (linked.pids.nodup_iff.mpr linked.distinct) first second same

/-- The processes of the ring are those of `live`. -/
theorem Linked.mem_live (linked : Linked s live ring) {pid : Int} :
    pid ∈ live ↔ ∃ a ∈ ring, s.pidOf a = pid := by
  rw [← linked.pids.mem_iff, List.mem_map]

/-- The switch of a ring goes to another slot of it. -/
theorem Linked.switched (linked : Linked s live ring) (switched : Switched s s') :
    ∃ ring', Linked s' live ring' ∧ ring'.Perm ring := by
  obtain ⟨k, position⟩ := switched.ahead
  refine linked.same switched.same.toSameLinks ?_
  rw [position]
  exact linked.closed.iterate_mem (linked.closed.next_mem linked.closed.start_mem) k

/-! ### createProcess -/

/-- The pages of a new process are those of no process there was. -/
theorem Stored.fresh (stored : Stored s slots blocks) {p t page1 page2 slot : Nat}
    (consistent : Consistent
      (s'.heapRun ((processBlocks p t page1 page2 slot).reverse ++ blocks))) {a : Nat}
    (member : a ∈ slots) : a ≠ slot ∧ (s.slot a).process ≠ p := by
  have pages : ((processBlocks p t page1 page2 slot).reverse ++ blocks |>.map Block.page).Nodup :=
    consistent.pages_nodup
  simp only [processBlocks, List.reverse_cons, List.reverse_nil, List.nil_append,
    List.cons_append, List.map_cons, List.nodup_cons, List.mem_cons, not_or] at pages
  obtain ⟨⟨-, -, -, -, notSlot⟩, -, -, -, notProcess, -⟩ := pages
  constructor
  · rintro rfl
    exact notSlot (List.mem_map.mpr ⟨_, stored.slot _ member, rfl⟩)
  · rintro rfl
    exact notProcess (List.mem_map.mpr ⟨_, stored.process _ member, rfl⟩)

/-- The slot and the process of a new process are stored beside the others. -/
theorem Stored.created (stored : Stored s slots blocks) (present : slots ≠ [] → s.current ≠ NULL)
    {p t page1 page2 slot : Nat} (created : Created s s' p slot)
    (consistent : Consistent
      (s'.heapRun ((processBlocks p t page1 page2 slot).reverse ++ blocks))) :
    Stored s' (slot :: slots) ((processBlocks p t page1 page2 slot).reverse ++ blocks) := by
  have counter : s'.pid = s.pid + 1 := created.counter.trans stored.counter_bound
  have kept : ∀ a ∈ slots,
      (s'.slot a).process = (s.slot a).process ∧ s'.pidOf a = s.pidOf a := by
    intro a member
    obtain ⟨otherSlot, otherProcess⟩ := stored.fresh consistent member
    exact created.kept (present (List.ne_nil_of_mem member)) otherSlot otherProcess
  have below := stored.pid
  refine ⟨consistent, ?_, ?_, ?_, ?_, ?_⟩
  · intro a member
    rcases List.mem_cons.mp member with rfl | old
    · simp [processBlocks]
    · exact List.mem_append_right _ (stored.slot a old)
  · intro a member
    rcases List.mem_cons.mp member with rfl | old
    · simp [created.added, processBlocks]
    · rw [(kept a old).1]
      exact List.mem_append_right _ (stored.process a old)
  · intro a member
    rcases List.mem_cons.mp member with rfl | old
    · rw [created.pidOf_slot, counter]
      have := stored.counter
      omega
    · rw [(kept a old).2, counter]
      have := below a old
      omega
  · intro a first b second same
    rcases List.mem_cons.mp first with rfl | old
    · rcases List.mem_cons.mp second with rfl | old'
      · rfl
      · rw [created.pidOf_slot, (kept b old').2] at same
        have := below b old'
        omega
    · rcases List.mem_cons.mp second with rfl | old'
      · rw [created.pidOf_slot, (kept a old).2] at same
        have := below a old
        omega
      · rw [(kept a old).2, (kept b old').2] at same
        exact stored.distinct a old b old' same
  · rw [counter]
    simp only [processBlocks, List.length_append, List.length_reverse, List.length_cons,
      List.length_nil]
    have := stored.counter
    omega

/-- A new process joins the ring. -/
theorem Linked.created (linked : Linked s live ring) (present : s.current ≠ NULL) {p slot : Nat}
    (created : Created s s' p slot) (fresh : ∀ a ∈ ring, a ≠ slot ∧ (s.slot a).process ≠ p)
    (new : s.pid ∉ live) :
    ∃ ring', Linked s' (s.pid :: live) ring' ∧ ring'.Perm (slot :: ring) := by
  have current : s'.current = s.current := by rw [created.current, if_neg present]
  have first : s'.next s.current = slot := by rw [next, created.linked present]
  have second : s'.next slot = s.next s.current := by rw [next, created.added, if_neg present]
  have others : ∀ a ∈ ring, a ≠ s.current → s'.next a = s.next a := by
    intro a member other
    rw [next, next, created.others a (fresh a member).1 other]
  obtain ⟨ring', linked', perm⟩ :=
    linked.closed.insert (fun member => (fresh slot member).1 rfl) first second others
  refine ⟨ring', ⟨current ▸ linked', ?_, ?_, ?_, ?_⟩, perm⟩
  · rw [created.cardinal, linked.cardinal, perm.length_eq, List.length_cons]
  · refine (perm.map _).trans ?_
    rw [List.map_cons, created.pidOf_slot]
    refine List.Perm.cons _ ?_
    rw [List.map_congr_left fun a member =>
      (created.kept present (fresh a member).1 (fresh a member).2).2]
    exact linked.pids
  · exact List.nodup_cons.mpr ⟨new, linked.distinct⟩
  · exact List.mem_cons_of_mem _ linked.init

/-! ### removeProcess -/

/-- What the loop of `removeProcess` finds on the slots ahead. -/
theorem removeProcessLoop_some {pid : Int} {ahead : List Nat} {prevSlot slot last x y : Nat}
    (path : Path s.next slot ahead last) (first : s.next prevSlot = slot)
    (found : s.removeProcessLoop pid ahead.length prevSlot slot = some (x, y)) :
    s.next x = y ∧ x ∈ prevSlot :: ahead ∧ y ∈ ahead ∧ s.pidOf y = pid := by
  induction ahead generalizing prevSlot slot with
  | nil => cases found
  | cons z ahead ih =>
      obtain ⟨rfl, rest⟩ := path
      simp only [List.length_cons, removeProcessLoop] at found
      split at found
      · rename_i isPid
        obtain ⟨rfl, rfl⟩ := Prod.mk.inj (Option.some.inj found)
        exact ⟨first, by simp, by simp, isPid⟩
      · obtain ⟨leads, before, member, isPid⟩ := ih rest rfl found
        exact ⟨leads, List.mem_cons_of_mem _ before, List.mem_cons_of_mem _ member, isPid⟩

/-- The loop of `removeProcess` finds nothing only when there is nothing. -/
theorem removeProcessLoop_none {pid : Int} {ahead : List Nat} {prevSlot slot last : Nat}
    (path : Path s.next slot ahead last)
    (none : s.removeProcessLoop pid ahead.length prevSlot slot = none) :
    ∀ y ∈ ahead, s.pidOf y ≠ pid := by
  induction ahead generalizing prevSlot slot with
  | nil => simp
  | cons z ahead ih =>
      obtain ⟨rfl, rest⟩ := path
      simp only [List.length_cons, removeProcessLoop] at none
      split at none
      · cases none
      · rename_i other
        intro y member
        rcases List.mem_cons.mp member with rfl | later
        · exact other
        · exact ih rest none y later

/-- The slots ahead of the current one are those of the ring. -/
theorem Linked.ahead (linked : Linked s live ring) :
    ∃ ahead, Path s.next (s.next s.current) ahead (s.next s.current) ∧
      s.cardinal_processes = ahead.length ∧ ahead.Perm ring := by
  obtain ⟨ahead, turned, perm⟩ :=
    linked.closed.rotate (linked.closed.next_mem linked.closed.start_mem)
  exact ⟨ahead, turned.path, by rw [linked.cardinal, perm.length_eq], perm⟩

/-- `removeProcess` finds the slot of the process and the one before it. -/
theorem Linked.findSlot_some (linked : Linked s live ring) {pid : Int} {x y : Nat}
    (found : s.findSlot pid = some (x, y)) :
    s.next x = y ∧ x ∈ ring ∧ y ∈ ring ∧ s.pidOf y = pid := by
  obtain ⟨ahead, path, cardinal, perm⟩ := linked.ahead
  rw [findSlot, cardinal] at found
  obtain ⟨leads, before, member, isPid⟩ := removeProcessLoop_some path rfl found
  refine ⟨leads, ?_, perm.mem_iff.mp member, isPid⟩
  rcases List.mem_cons.mp before with rfl | later
  · exact linked.closed.start_mem
  · exact perm.mem_iff.mp later

/-- `removeProcess` finds every process of the ring. -/
theorem Linked.findSlot_none (linked : Linked s live ring) {pid : Int}
    (none : s.findSlot pid = none) : pid ∉ live := by
  obtain ⟨ahead, path, cardinal, perm⟩ := linked.ahead
  rw [findSlot, cardinal] at none
  intro isLive
  obtain ⟨y, member, isPid⟩ := linked.mem_live.mp isLive
  exact removeProcessLoop_none path none y (perm.mem_iff.mpr member) isPid

/-- A process other than the first one is never alone. -/
theorem Linked.next_ne (linked : Linked s live ring) {a : Nat} (member : a ∈ ring)
    (notInit : s.pidOf a ≠ 0) : s.next a ≠ a := by
  intro alone
  obtain ⟨b, isSlot, init⟩ := linked.mem_live.mp linked.init
  exact notInit (linked.closed.eq_of_next_self member alone b isSlot ▸ init)

/-- The first process always remains, so another one is not the only one. -/
theorem Linked.not_onlyProcess (linked : Linked s live ring) {pid : Int} (other : pid ≠ 0) :
    ¬ s.IsOnlyProcess pid := by
  rintro ⟨same, isPid⟩
  have start := linked.closed.start_mem
  have alone := linked.eq_of_pidOf start (linked.closed.next_mem start) same
  exact linked.next_ne start (isPid ▸ other) alone.symm

/-- The slot behind `x` taken out, the rest is a ring from each of its slots. -/
theorem Linked.unlink (linked : Linked s live ring) {x y : Nat} (before : x ∈ ring)
    (leads : s.next x = y) (notInit : s.pidOf y ≠ 0) :
    ∃ rest, (y :: rest).Perm ring ∧ s.next y ∈ rest ∧ ∀ s', SameRing (s.unlink x y) s' →
      s'.current ∈ rest → ∃ ring', Linked s' (live.erase (s.pidOf y)) ring' ∧
        ring'.Perm rest := by
  have member : y ∈ ring := leads ▸ linked.closed.next_mem before
  have two : y ≠ x := by
    rintro rfl
    exact linked.next_ne member notInit leads
  have unlinked : (s.unlink x y).next x = s.next y := by simp [unlink_next]
  obtain ⟨rest, perm, rings⟩ := linked.closed.remove before leads two unlinked
    (fun z _ other => by simp [unlink_next, other])
  refine ⟨rest, perm, ?_, fun s' same current => ?_⟩
  · have onRing := perm.mem_iff.mpr (linked.closed.next_mem member)
    exact (List.mem_cons.mp onRing).resolve_left (linked.next_ne member notInit)
  · obtain ⟨ring', turned, perm'⟩ := rings _ current
    rw [← same.next] at turned
    have pids : (s.pidOf y :: rest.map s.pidOf).Perm live :=
      (perm.map s.pidOf).trans linked.pids
    refine ⟨ring', ⟨turned, ?_, ?_, ?_, ?_⟩, perm'⟩
    · have length := perm.length_eq
      rw [List.length_cons] at length
      rw [same.cardinal, perm'.length_eq]
      change s.cardinal_processes - 1 = _
      rw [linked.cardinal]
      omega
    · rw [same.pidOf, unlink_pidOf]
      exact (perm'.map _).trans (List.cons_perm_iff_perm_erase.mp pids).2
    · exact linked.distinct.erase _
    · exact (List.mem_erase_of_ne notInit.symm).mpr linked.init

/-- `removeProcess` behind its loop takes the process out of the ring. -/
theorem Linked.removeSlot (linked : Linked s live ring) (present : s.current ≠ NULL) {x y : Nat}
    (before : x ∈ ring) (leads : s.next x = y) (notInit : s.pidOf y ≠ 0) {fuel rsp : Nat}
    (removed : s.removeSlot fuel rsp x y = some s') :
    SameRing (s.unlink x y) s' ∧
      ∃ ring', Linked s' (live.erase (s.pidOf y)) ring' ∧ (y :: ring').Perm ring := by
  have start := linked.closed.start_mem
  have member : y ∈ ring := leads ▸ linked.closed.next_mem before
  obtain ⟨rest, perm, behind, shrunk⟩ := linked.unlink before leads notInit
  simp only [Scheduler.removeSlot, unlink_pidOf] at removed
  split at removed
  · rename_i isCurrent
    obtain rfl := linked.eq_of_pidOf member start isCurrent
    obtain ⟨same, -, k, position⟩ := yield_switched (s := s.unlink x s.current) present removed
    -- The link of the slot taken out still leads to the ring.
    have next : (s.unlink x s.current).next s.current = s.next s.current := by
      rw [unlink_next]
      by_cases self : s.current = x
      · rw [← self, Function.update_self]
      · rw [Function.update_of_ne self]
    obtain ⟨ring', entered, perm'⟩ :=
      shrunk { s.unlink x s.current with current := s.next s.current }
        ⟨⟨rfl, rfl, rfl, fun _ => rfl⟩, rfl⟩ behind
    have current : s'.current ∈ rest := by
      rw [position]
      change (s.unlink x s.current).next^[k] ((s.unlink x s.current).next s.current) ∈ rest
      rw [next]
      exact perm'.mem_iff.mp (entered.closed.iterate_mem entered.closed.start_mem k)
    obtain ⟨ring', linked', perm'⟩ := shrunk _ same current
    exact ⟨same, ring', linked', (perm'.cons _).trans perm⟩
  · rename_i other
    obtain rfl := Option.some.inj removed
    have current : s.current ∈ rest := by
      refine (List.mem_cons.mp (perm.mem_iff.mpr start)).resolve_left ?_
      intro isCurrent
      exact other (congrArg s.pidOf isCurrent.symm)
    obtain ⟨ring', linked', perm'⟩ := shrunk _ (.refl _) current
    exact ⟨.refl _, ring', linked', (perm'.cons y).trans perm⟩

/-- `removeProcess` takes the process out of the ring, and touches neither the
other processes nor the page allocator. -/
theorem Linked.removeProcess (linked : Linked s live ring) (present : s.current ≠ NULL)
    {fuel rsp : Nat} {pid : Int} (removed : s.removeProcess fuel rsp pid = some s') :
    SamePages s s' ∧
      ∃ ring', Linked s' (if pid = 0 then live else live.erase pid) ring' ∧ ring' ⊆ ring := by
  unfold Scheduler.removeProcess at removed
  by_cases init : pid = 0
  · rw [if_pos init] at removed ⊢
    have switched := yield_switched present removed
    obtain ⟨ring', linked', perm⟩ := linked.switched switched
    exact ⟨switched.same.samePages, ring', linked', fun _ member => perm.mem_iff.mp member⟩
  · rw [if_neg init, if_neg present, if_neg (linked.not_onlyProcess init)] at removed
    rw [if_neg init]
    split at removed
    · rename_i none
      obtain rfl := Option.some.inj removed
      rw [List.erase_of_not_mem (linked.findSlot_none none)]
      exact ⟨(SameRing.refl s).samePages, ring, linked, List.Subset.refl _⟩
    · rename_i x y found
      obtain ⟨leads, before, member, rfl⟩ := linked.findSlot_some found
      obtain ⟨same, ring', linked', perm⟩ :=
        linked.removeSlot present before leads init removed
      exact ⟨(unlink_samePages s x y).trans same.samePages, ring', linked',
        fun _ inner => perm.mem_iff.mp (List.mem_cons_of_mem _ inner)⟩

/-! ### All slots made so far -/

/-- `slots'` holds the slots of `slots`, with the processes they had. -/
def Keeps (s s' : Scheduler) (slots slots' : List Nat) : Prop :=
  ∀ a ∈ slots, a ∈ slots' ∧ s'.pidOf a = s.pidOf a

/-- Some process runs. -/
theorem Sound.present (sound : Sound s live slots) : s.current ≠ NULL := by
  obtain ⟨ring, blocks, linked, stored, within⟩ := sound
  exact stored.present (within linked.closed.start_mem)

/-- An operation that leaves the ring keeps the invariant. -/
theorem Sound.same (sound : Sound s live slots) (same : SameRing s s')
    (current : s'.current = s.current) : Sound s' live slots ∧ Keeps s s' slots slots := by
  obtain ⟨ring, blocks, linked, stored, within⟩ := sound
  obtain ⟨ring', linked', perm⟩ := linked.same same.toSameLinks (current ▸ linked.closed.start_mem)
  exact ⟨⟨ring', blocks, linked', stored.same same.samePages,
    fun _ member => within (perm.mem_iff.mp member)⟩,
    fun a member => ⟨member, by rw [same.pidOf]⟩⟩

/-- A switch keeps the invariant. -/
theorem Sound.switched (sound : Sound s live slots) (switched : Switched s s') :
    Sound s' live slots ∧ Keeps s s' slots slots := by
  obtain ⟨ring, blocks, linked, stored, within⟩ := sound
  obtain ⟨ring', linked', perm⟩ := linked.switched switched
  exact ⟨⟨ring', blocks, linked', stored.same switched.same.samePages,
    fun _ member => within (perm.mem_iff.mp member)⟩,
    fun a member => ⟨member, by rw [switched.same.pidOf]⟩⟩

/-- `createProcess` puts a process of its own on the ring. -/
theorem Linked.createProcess (linked : Linked s live ring) (stored : Stored s slots blocks)
    (within : ring ⊆ slots) (present : s.current ≠ NULL) {entryPoint : Nat} {q : Int}
    (made : s.createProcess entryPoint = some (s', q)) :
    ∃ p t page1 page2 slot ring', q = s.pid ∧
      allocPages s.buddyArray [1, 1, 2, 2, 1] =
        some (s'.buddyArray, processBlocks p t page1 page2 slot) ∧
      Created s s' p slot ∧ Linked s' (q :: live) ring' ∧
      Stored s' (slot :: slots) ((processBlocks p t page1 page2 slot).reverse ++ blocks) ∧
      ring' ⊆ slot :: slots := by
  obtain ⟨p, t, page1, page2, slot, took, rfl, added⟩ := createProcess_allocates made
  have consistent : Consistent
      (s'.heapRun ((processBlocks p t page1 page2 slot).reverse ++ blocks)) :=
    stored.consistent.allocPages took
  have fresh := fun a member => stored.fresh (a := a) consistent member
  have created := added (fresh _ (within linked.closed.start_mem)).1.symm
  have new : s.pid ∉ live := by
    intro member
    obtain ⟨a, onRing, pid⟩ := linked.mem_live.mp member
    have below := stored.pid a (within onRing)
    omega
  obtain ⟨ring', linked', perm⟩ :=
    linked.created present created (fun a member => fresh a (within member)) new
  refine ⟨p, t, page1, page2, slot, ring', rfl, took, created, linked',
    stored.created (fun _ => present) created consistent, fun a member => ?_⟩
  rcases List.mem_cons.mp (perm.mem_iff.mp member) with rfl | old
  · exact List.mem_cons_self
  · exact List.mem_cons_of_mem _ (within old)

/-- `createProcess` keeps the invariant, with the new pid. -/
theorem Sound.createProcess (sound : Sound s live slots) {entryPoint : Nat} {q : Int}
    (made : s.createProcess entryPoint = some (s', q)) :
    ∃ slots', Sound s' (q :: live) slots' ∧ Keeps s s' slots slots' := by
  have present := sound.present
  obtain ⟨ring, blocks, linked, stored, within⟩ := sound
  obtain ⟨p, t, page1, page2, slot, ring', -, -, created, linked', stored', within'⟩ :=
    linked.createProcess stored within present made
  refine ⟨slot :: slots, ⟨ring', _, linked', stored', within'⟩, fun a member => ?_⟩
  obtain ⟨otherSlot, otherProcess⟩ := stored.fresh stored'.consistent member
  exact ⟨List.mem_cons_of_mem _ member, (created.kept present otherSlot otherProcess).2⟩

/-- `removeProcess` keeps the invariant, without the pid. -/
theorem Sound.removeProcess (sound : Sound s live slots) {fuel rsp : Nat} {pid : Int}
    (removed : s.removeProcess fuel rsp pid = some s') :
    Sound s' (if pid = 0 then live else live.erase pid) slots ∧ Keeps s s' slots slots := by
  have present := sound.present
  obtain ⟨ring, blocks, linked, stored, within⟩ := sound
  obtain ⟨same, ring', linked', fewer⟩ := linked.removeProcess present removed
  exact ⟨⟨ring', blocks, linked', stored.same same, fun _ member => within (fewer member)⟩,
    fun a member => ⟨member, by rw [same.pidOf]⟩⟩

end Invariant

/-! ## What the ring is for -/

/-- The pid of the process `i` steps ahead of the current one. -/
def pidAt (s : Scheduler) (i : Nat) : Int := s.pidOf (s.next^[i] s.current)

/-- From the current slot `next` leads through `cardinal_processes` slots and
back, and they hold exactly the processes of `live`, the first one among them. -/
structure Intact (s : Scheduler) (live : List Int) : Prop where
  round : Returns s.next s.current s.cardinal_processes
  distinct : ∀ i j, i < s.cardinal_processes → j < s.cardinal_processes →
    s.pidAt i = s.pidAt j → i = j
  init : ∃ i, i < s.cardinal_processes ∧ s.pidAt i = 0
  live : ∀ pid, pid ∈ live ↔ ∃ i, i < s.cardinal_processes ∧ s.pidAt i = pid

/-- A ring of slots is intact. -/
theorem Linked.intact {s : Scheduler} {live : List Int} {ring : List Nat}
    (linked : Linked s live ring) : Intact s live := by
  have slots : ∀ pid, pid ∈ live ↔ ∃ i, i < s.cardinal_processes ∧ s.pidAt i = pid := by
    intro pid
    rw [linked.mem_live, linked.cardinal]
    constructor
    · rintro ⟨a, member, rfl⟩
      obtain ⟨i, bound, rfl⟩ := linked.closed.mem_iff.mp member
      exact ⟨i, bound, rfl⟩
    · rintro ⟨i, bound, rfl⟩
      exact ⟨_, linked.closed.mem_iff.mpr ⟨i, bound, rfl⟩, rfl⟩
  refine ⟨?_, ?_, (slots 0).mp linked.init, slots⟩
  · rw [linked.cardinal]
    exact linked.closed.returns
  · intro i j first second same
    rw [linked.cardinal] at first second
    have slot := linked.eq_of_pidOf (linked.closed.mem_iff.mpr ⟨i, first, rfl⟩)
      (linked.closed.mem_iff.mpr ⟨j, second, rfl⟩) same
    have nodes := linked.closed.eq_iterate
    refine (List.getElem?_inj first linked.closed.nodup).mp ?_
    rw [nodes, List.getElem?_iterate _ _ _ _ first, List.getElem?_iterate _ _ _ _ second, slot]

/-- An intact ring is one of slots. -/
theorem Intact.linked {s : Scheduler} {live : List Int} (intact : Intact s live)
    (distinct : live.Nodup) : ∃ ring, Linked s live ring := by
  have ring := intact.round.ring
  refine ⟨_, ring, (List.length_iterate _ _ _).symm, ?_, distinct, (intact.live 0).mpr intact.init⟩
  refine (List.perm_ext_iff_of_nodup ?_ distinct).mpr fun pid => ?_
  · rw [List.nodup_iff_getElem?_ne_getElem?]
    intro i j before within same
    rw [List.length_map, List.length_iterate] at within
    rw [List.getElem?_map, List.getElem?_map, List.getElem?_iterate _ _ _ _ (by omega),
      List.getElem?_iterate _ _ _ _ within] at same
    have := intact.distinct i j (by omega) within (Option.some.inj same)
    omega
  · rw [intact.live, List.mem_map]
    simp only [List.mem_iterate]
    constructor
    · rintro ⟨a, ⟨i, bound, rfl⟩, rfl⟩
      exact ⟨i, bound, rfl⟩
    · rintro ⟨i, bound, rfl⟩
      exact ⟨_, ⟨i, bound, rfl⟩, rfl⟩

end Scheduler

/-! ## Runs of the scheduler -/

/-- The scheduler and the processes created and not removed. -/
structure SchedulerRun where
  scheduler : Scheduler
  live : List Int

/-- The calls a run is made of. -/
inductive SchedulerAction where
  | createProcess (entryPoint : Nat)
  | removeProcess (pid : Int) (rsp : Nat)
  | next_process (rsp : Nat)
  | switchUserToKernel (esp : Nat)
  | switchKernelToUser
  | changeProcessState (pid : Int) (state : ProcessState)

namespace SchedulerRun

open Scheduler

/-- One call that completes. `removeProcess(0)` removes nothing. -/
def step (fuel : Nat) (state : SchedulerRun) : SchedulerAction → Option SchedulerRun
  | .createProcess entryPoint =>
      (state.scheduler.createProcess entryPoint).map fun (s, pid) => ⟨s, pid :: state.live⟩
  | .removeProcess pid rsp =>
      (state.scheduler.removeProcess fuel rsp pid).map fun s =>
        ⟨s, if pid = 0 then state.live else state.live.erase pid⟩
  | .next_process rsp =>
      (state.scheduler.next_process fuel rsp).map fun (s, _) => ⟨s, state.live⟩
  | .switchUserToKernel esp => some ⟨(state.scheduler.switchUserToKernel esp).1, state.live⟩
  | .switchKernelToUser =>
      (state.scheduler.switchKernelToUser fuel).map fun (s, _) => ⟨s, state.live⟩
  | .changeProcessState pid processState =>
      some ⟨state.scheduler.changeProcessState pid processState, state.live⟩

/-- The scheduler before the first process; the memory is arbitrary. -/
structure Boot (s : Scheduler) : Prop where
  cardinal : s.cardinal_processes = 0
  current : s.current = NULL
  pid : s.pid = 0
  buddyArray : s.buddyArray = createHeap

/-- The first process has been created. -/
def Start (state : SchedulerRun) : Prop :=
  ∃ boot entryPoint pid, Boot boot ∧
    boot.createProcess entryPoint = some (state.scheduler, pid) ∧ state.live = [pid]

/-- The ring and all slots made so far. -/
def Sound (state : SchedulerRun) (slots : List Nat) : Prop :=
  state.scheduler.Sound state.live slots

/-- The first process is alone on the ring. -/
theorem Boot.createProcess {boot s : Scheduler} {entryPoint : Nat} {pid : Int} (empty : Boot boot)
    (made : boot.createProcess entryPoint = some (s, pid)) :
    ∃ p t page1 page2 slot, pid = 0 ∧ Created boot s p slot ∧ Linked s [0] [slot] ∧
      allocPages boot.buddyArray [1, 1, 2, 2, 1] =
        some (s.buddyArray, processBlocks p t page1 page2 slot) ∧
      Stored s [slot] ((processBlocks p t page1 page2 slot).reverse ++ []) := by
  have stored : Stored boot [] [] := by
    refine ⟨?_, by simp, by simp, by simp, by simp, by simp [empty.pid]⟩
    rw [heapRun, empty.buddyArray]
    exact consistent_boot
  obtain ⟨p, t, page1, page2, slot, took, rfl, added⟩ := createProcess_allocates made
  have consistent : Consistent
      (s.heapRun ((processBlocks p t page1 page2 slot).reverse ++ [])) :=
    stored.consistent.allocPages took
  have created := added (by
    rw [empty.current]
    rintro rfl
    have positive := (consistent.placed ⟨0, 1⟩ (by simp [processBlocks])).page_positive
    exact absurd positive (Nat.lt_irrefl 0))
  have current : s.current = slot := by
    rw [created.current, if_pos empty.current]
  refine ⟨p, t, page1, page2, slot, empty.pid, created, ⟨?_, ?_, ?_, ?_, ?_⟩, took,
    stored.created (fun made => absurd rfl made) created consistent⟩
  · refine ⟨⟨current, ?_⟩, List.nodup_singleton _, by simp⟩
    rw [Path.nil_iff, Scheduler.next, created.added, if_pos empty.current, current]
  · rw [created.cardinal, empty.cardinal, List.length_singleton]
  · rw [List.map_singleton, created.pidOf_slot, empty.pid]
  · exact List.nodup_singleton _
  · exact List.mem_singleton_self _

/-- The invariant holds at the start. -/
theorem Start.sound {state : SchedulerRun} (start : Start state) : ∃ slots, state.Sound slots := by
  obtain ⟨boot, entryPoint, pid, empty, made, live⟩ := start
  obtain ⟨p, t, page1, page2, slot, rfl, created, linked, took, stored⟩ :=
    empty.createProcess made
  exact ⟨[slot], [slot], _, live ▸ linked, stored, List.Subset.refl _⟩

/-- Every call that completes keeps the ring. -/
theorem Sound.step {fuel : Nat} {state after : SchedulerRun} {action : SchedulerAction}
    {slots : List Nat} (sound : state.Sound slots) (stepped : state.step fuel action = some after) :
    ∃ slots', after.Sound slots' ∧ Keeps state.scheduler after.scheduler slots slots' := by
  cases action with
  | createProcess entryPoint =>
      obtain ⟨⟨s, pid⟩, made, rfl⟩ := Option.map_eq_some_iff.mp stepped
      exact Scheduler.Sound.createProcess sound made
  | removeProcess pid rsp =>
      obtain ⟨s, removed, rfl⟩ := Option.map_eq_some_iff.mp stepped
      exact ⟨slots, Scheduler.Sound.removeProcess sound removed⟩
  | next_process rsp =>
      obtain ⟨⟨s, stack⟩, switched, rfl⟩ := Option.map_eq_some_iff.mp stepped
      exact ⟨slots, Scheduler.Sound.switched sound
        (next_process_switched (Scheduler.Sound.present sound) switched)⟩
  | switchUserToKernel esp =>
      obtain rfl := Option.some.inj stepped
      exact ⟨slots, Scheduler.Sound.same sound (setThread_sameRing _ _ _) rfl⟩
  | switchKernelToUser =>
      obtain ⟨⟨s, stack⟩, switched, rfl⟩ := Option.map_eq_some_iff.mp stepped
      exact ⟨slots, Scheduler.Sound.switched sound (switchKernelToUser_switched switched)⟩
  | changeProcessState pid processState =>
      obtain rfl := Option.some.inj stepped
      obtain ⟨same, current⟩ := changeProcessState_sameRing state.scheduler pid processState
      exact ⟨slots, Scheduler.Sound.same sound same current⟩

/-- In every run from boot the slots reached from the current one are a ring of
`cardinal_processes` slots that holds exactly the processes created and not
removed. -/
theorem ring_intact (fuel : Nat) (start : SchedulerRun) (begins : Start start)
    (actions : List SchedulerAction) (final : SchedulerRun)
    (ran : run (step fuel) start actions = some final) :
    final.scheduler.Intact final.live := by
  have preserved : ∀ state action next, (∃ slots, state.Sound slots) →
      step fuel state action = some next → ∃ slots, next.Sound slots := by
    rintro state action next ⟨slots, sound⟩ stepped
    obtain ⟨slots', sound', -⟩ := sound.step stepped
    exact ⟨slots', sound'⟩
  have sound : ∃ slots, final.Sound slots := run_invariant preserved begins.sound ran
  obtain ⟨slots, ring, blocks, linked, -⟩ := sound
  exact linked.intact

/-- A memory of zeros before the first process. -/
def emptyMemory : Scheduler where
  cardinal_processes := 0
  current := NULL
  pid := 0
  buddyArray := createHeap
  slot := fun _ => ⟨NULL, NULL⟩
  process := fun _ =>
    ⟨0, .running, 0, 0, initializeThreadArray, NULL, 0, Vector.replicate _ NULL⟩
  thread := fun _ => ⟨NULL, NULL, 0⟩

/-- The scheduler before the first process is one at boot. -/
theorem emptyMemory_boot : Boot emptyMemory where
  cardinal := rfl
  current := rfl
  pid := rfl
  buddyArray := by rw [emptyMemory]

/-- The second process creates a third one and is removed while it runs. -/
def removeCurrent : List SchedulerAction :=
  [.createProcess 0x800000, .switchKernelToUser, .createProcess 0x900000, .removeProcess 1 0,
    .removeProcess 7 0, .removeProcess 0 0]

/-- The first and the third process are left. -/
theorem ring_intact_removed : ∃ start final, Start start ∧
    run (step 3) start removeCurrent = some final ∧ final.live = [2, 0] ∧
      final.scheduler.Intact final.live := by
  have result : ((emptyMemory.createProcess 0x400000).bind fun (s, pid) =>
      run (step 3) ⟨s, [pid]⟩ removeCurrent).map SchedulerRun.live = some [2, 0] := by
    rw [emptyMemory, createHeap_eq]
    decide +kernel
  obtain ⟨final, ran, live⟩ := Option.map_eq_some_iff.mp result
  obtain ⟨⟨s, pid⟩, made, ran⟩ := Option.bind_eq_some_iff.mp ran
  have begins : Start ⟨s, [pid]⟩ := ⟨emptyMemory, 0x400000, pid, emptyMemory_boot, made, rfl⟩
  exact ⟨_, final, begins, ran, live, ring_intact 3 _ begins _ final ran⟩

end SchedulerRun

end SistemasOperativos.Kernel
