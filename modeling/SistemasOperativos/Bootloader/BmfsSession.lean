import SistemasOperativos.Bootloader.BmfsStore
import SistemasOperativos.Semantics.Run

/-!
# Sessions with a disk

`create` keeps the other files of a well-formed disk exactly if `CreatesSafely` holds
(`create_safe_iff`): when the room of a deleted file leads the search astray, or a directory
without an end hides the files, it does not. A session in which it holds at each `create` is a
session of the store (`session_refines`).
-/

namespace SistemasOperativos.Bootloader

open SistemasOperativos.Foundation SistemasOperativos.Semantics

/-- `create` overlaps no file and hides none: if the directory has an end, there is a gap that is
wide enough or no deleted file to go by; if it has none, nothing is added, or there is no file, or
the first record is in use and the blocks from the first on are free. -/
structure CreatesSafely (e : Nat → BMFSEntry) (num_blocks used need : Nat) : Prop where
  ended : used < maxEntries →
    (freePlaces e num_blocks used need).Nonempty ∨ ∀ t, ¬ Stale e num_blocks used need t
  unended : used = maxEntries →
    (∀ t < used, ¬ (e t).Empty) ∨ num_blocks ≤ 1 + need ∨ (∀ t, ¬ Live e used t) ∨
      Live e used 0 ∧ 1 ∈ freePlaces e num_blocks used need

section Added

variable {disk : Disk} {directory : Nat → UInt8} {filename : FileName}
  {used' slot place need : Nat}

/-- The record of a new file was not in use. -/
theorem Added.fresh {e e' : Nat → BMFSEntry} {used : Nat}
    (added : Added e e' used used' slot place need filename) : ¬ Live e used slot :=
  fun live => live.2 (added.free.empty live.1)

/-- A file more, and the others as before. -/
theorem Added.files (added : Added disk.entry (entry directory) disk.used used' slot place need
      filename) (wellFormed : disk.WellFormed)
    (absent : ∀ t, Live disk.entry disk.used t → (disk.entry t).name ≠ filename.toCString)
    (chosen : PlaceFor disk.entry disk.num_blocks disk.used need place) (found : place ≠ 0)
    (positive : 1 ≤ need) (seen : ∀ t, Live disk.entry disk.used t → t < used')
    (apart : ∀ t, Live disk.entry disk.used t →
      Interval.Disjoint ⟨place, place + need⟩ (disk.entry t).blocks) :
    (disk.flush directory).WellFormed ∧
      (disk.flush directory).files =
        Function.update disk.files filename (some ⟨need, []⟩) := by
  obtain ⟨three, -, -⟩ := wellFormed.num_blocks_le
  have room := chosen.room found wellFormed.sound three
  have sound : Sound (entry directory) disk.num_blocks used' :=
    wellFormed.sound.added added room.1 positive room.2 absent fun t live _ => apart t live
  obtain ⟨result, used⟩ := wellFormed.flush sound
  have bound := sound.bound
  have slotEq : (disk.flush directory).entry slot = entry directory slot :=
    Disk.flush_entry added.free.bound
  have others : ∀ t < used', t ≠ slot → (disk.flush directory).entry t = disk.entry t := by
    intro t inside different
    exact (Disk.flush_entry (lt_of_lt_of_le inside bound)).trans (added.others t inside different)
  refine ⟨result, wellFormed.files_update result slot ?_ (fun t _ live => absent t live) ?_ ?_ ?_⟩
  · intro t different
    have alive : Live (disk.flush directory).entry (disk.flush directory).used t ↔
        Live disk.entry disk.used t := by
      constructor
      · rintro ⟨inside, filled⟩
        rw [used] at inside
        refine (added.alive different inside).mp ⟨inside, ?_⟩
        rwa [← Disk.flush_entry (lt_of_lt_of_le inside bound)]
      · intro live
        have inside := seen t live
        rw [Live, used, others t inside different]
        exact ⟨inside, live.2⟩
    refine ⟨alive, fun live => ?_⟩
    have inside := seen t live
    obtain ⟨same, file⟩ := wellFormed.fileAt_flush live (added.others t inside different)
    exact ⟨by rw [same], file⟩
  · exact fun live => absurd live added.fresh
  · intro _
    have new := added.new
    refine ⟨by rw [slotEq]; exact new.name, ?_⟩
    rw [Disk.fileAt, Disk.fileBytes, slotEq, new.blocks, new.size]
    rfl
  · intro dead
    refine absurd ⟨?_, ?_⟩ dead
    · rw [used]
      exact added.slot_lt
    · rw [slotEq]
      exact added.new.filled

/-- The records that are seen on the disk. -/
theorem Added.used_eq (added : Added disk.entry (entry directory) disk.used used' slot place need
      filename) (wellFormed : disk.WellFormed) : (disk.flush directory).used = used' := by
  have limit := added.limit
  refine usedEntries_eq limit (fun t inside => ?_) fun less => ?_
  · have same : (disk.flush directory).entry t = entry directory t :=
      Disk.flush_entry (lt_of_lt_of_le inside limit)
    rw [Disk.entry] at same
    rw [same]
    exact added.inUse wellFormed.sound.inUse t inside
  · have same : (disk.flush directory).entry used' = entry directory used' :=
      Disk.flush_entry less
    rw [Disk.entry] at same
    rw [same]
    exact added.ended less

/-- If the files are as before, none of them is overlapped. -/
theorem Added.apart (added : Added disk.entry (entry directory) disk.used used' slot place need
      filename) (wellFormed : (disk.flush directory).WellFormed)
    (used : (disk.flush directory).used = used') {t : Nat} (live : Live disk.entry disk.used t)
    (seen : t < used') :
    Interval.Disjoint ⟨place, place + need⟩ (disk.entry t).blocks := by
  have different : t ≠ slot := by
    rintro rfl
    exact added.fresh live
  have bound := wellFormed.sound.bound
  have slotEq : (disk.flush directory).entry slot = entry directory slot :=
    Disk.flush_entry added.free.bound
  have same : (disk.flush directory).entry t = disk.entry t :=
    (Disk.flush_entry (by omega)).trans (added.others t seen different)
  have new : Live (disk.flush directory).entry (disk.flush directory).used slot := by
    rw [Live, used, slotEq]
    exact ⟨added.slot_lt, added.new.filled⟩
  have old : Live (disk.flush directory).entry (disk.flush directory).used t := by
    rw [Live, used, same]
    exact ⟨seen, live.2⟩
  have disjoint := wellFormed.sound.apart slot t new old different.symm
  rwa [slotEq, same, BMFSEntry.blocks, added.new.start, added.new.blocks] at disjoint

/-- Where a new file goes if `create` is safe. -/
theorem CreatesSafely.added
    (safe : CreatesSafely disk.entry disk.num_blocks disk.used need) {e' : Nat → BMFSEntry}
    (added : Added disk.entry e' disk.used used' slot place need filename)
    (wellFormed : disk.WellFormed)
    (chosen : PlaceFor disk.entry disk.num_blocks disk.used need place) (found : place ≠ 0) :
    ∀ t, Live disk.entry disk.used t → t < used' ∧
      Interval.Disjoint ⟨place, place + need⟩ (disk.entry t).blocks := by
  intro t live
  have inside := live.1
  have count := added.count
  rcases Nat.eq_or_lt_of_le wellFormed.sound.bound with last | less
  · have start := chosen.unseen last
    rw [if_neg (by omega)] at count
    split at start
    · rename_i room
      rcases safe.unended last with filled | narrow | nothing | ⟨first, free⟩
      · have slotLess : slot < disk.used := last ▸ added.free.bound
        exact absurd (added.free.empty slotLess) (filled slot slotLess)
      · omega
      · exact absurd live (nothing t)
      · have different : slot ≠ 0 := by
          rintro rfl
          exact added.fresh first
        rw [if_neg different] at count
        rw [start]
        exact ⟨by omega, free.2.2 t live⟩
    · exact absurd start found
  · rw [if_pos less] at count
    refine ⟨by omega, ?_⟩
    cases chosen.area less with
    | free least => exact least.1.2.2 t live
    | stale full stale =>
        rcases safe.ended less with ⟨other, free⟩ | fresh
        · rw [full] at free
          exact absurd free (Set.notMem_empty other)
        · exact absurd stale (fresh _)
    | none => exact absurd rfl found

end Added

/-! ## A small disk -/

/-- A disk of three blocks that was formatted. -/
def smallDisk : Disk := format ⟨6291456, fun _ => 0⟩

/-- The name "A". -/
def nameA : FileName where
  chars := [65]
  nonzero := by simp
  inhabited := by decide
  short := by decide
  used := by decide

/-- The image of the examples is well formed and holds no file. -/
theorem smallDisk_empty :
    smallDisk.WellFormed ∧ (smallDisk.files = fun _ => none) ∧ smallDisk.used = 0 := by
  have large : 6291456 ≤ (⟨6291456, fun _ => 0⟩ : Disk).size := Nat.le_refl _
  have small : (⟨6291456, fun _ => 0⟩ : Disk).size < 2 ^ 52 :=
    show 6291456 < 2 ^ 52 by omega
  rw [smallDisk]
  exact Disk.format_empty large small

/-! ## Exactly when -/

section Create

variable {disk : Disk} {filename : FileName} {maxsize need : Nat}

/-- A disk is well formed and has the files of another one, except for a name. -/
def OthersKept (disk disk' : Disk) (filename : FileName) : Prop :=
  disk'.WellFormed ∧ ∀ other, other ≠ filename → disk'.files other = disk.files other

/-- `create` keeps the files and adds one, or it says that it does not. -/
theorem create_safe (wellFormed : disk.WellFormed) (valid : 1 ≤ maxsize)
    (absent : disk.files filename = none)
    (safe : CreatesSafely disk.entry disk.num_blocks disk.used (blocksFor maxsize)) :
    create disk filename maxsize = (disk, .noFreeEntry) ∨
      (∃ size, create disk filename maxsize = (disk, .cannotCreate size)) ∨
      (create disk filename maxsize).2 = .complete ∧
        (create disk filename maxsize).1.WellFormed ∧
        (create disk filename maxsize).1.files =
          Function.update disk.files filename (some ⟨blocksFor maxsize, []⟩) := by
  rw [wellFormed.files_eq_none_iff] at absent
  have created : Created disk filename (blocksFor maxsize) (create disk filename maxsize) :=
    wellFormed.create_cases
  obtain ⟨result, resultEq⟩ : ∃ result, result = create disk filename maxsize := ⟨_, rfl⟩
  rw [← resultEq] at created ⊢
  cases created with
  | present live same => exact absurd same (absent _ live)
  | full => exact .inl rfl
  | refused => exact .inr (.inl ⟨_, rfl⟩)
  | added _ chosen found added =>
      have others := safe.added added wellFormed chosen found
      have positive : 1 ≤ blocksFor maxsize := by
        unfold blocksFor
        omega
      exact .inr (.inr ⟨rfl, added.files wellFormed absent chosen found positive
        (fun t live => (others t live).1) fun t live => (others t live).2⟩)

/-- A place that overlaps no file is a free one. -/
theorem PlaceFor.mem_freePlaces {place : Nat} (wellFormed : disk.WellFormed)
    (chosen : PlaceFor disk.entry disk.num_blocks disk.used need place) (found : place ≠ 0)
    (apart : ∀ t, Live disk.entry disk.used t →
      Interval.Disjoint ⟨place, place + need⟩ (disk.entry t).blocks) :
    place ∈ freePlaces disk.entry disk.num_blocks disk.used need := by
  obtain ⟨three, -, -⟩ := wellFormed.num_blocks_le
  obtain ⟨start, ends⟩ := chosen.room found wellFormed.sound three
  exact ⟨start, by omega, apart⟩

/-- Nothing is found only if there is no room behind a deleted file. -/
theorem AreaFound.fresh {e : Nat → BMFSEntry} {num_blocks used place : Nat}
    (area : AreaFound e num_blocks used need place) (sound : Sound e num_blocks used)
    (nothing : place = 0) : ∀ t, ¬ Stale e num_blocks used need t := by
  cases area with
  | free least =>
      have start := least.1.1
      omega
  | stale full stale =>
      have start := (sound.placed _ stale.1).start
      omega
  | none full fresh => exact fresh

/-- If there is a free place, the first one is found. -/
theorem AreaFound.eq_of_isLeast {e : Nat → BMFSEntry} {num_blocks used place least : Nat}
    (area : AreaFound e num_blocks used need place)
    (isLeast : IsLeast (freePlaces e num_blocks used need) least) : place = least := by
  have full : freePlaces e num_blocks used need ≠ ∅ :=
    Set.nonempty_iff_ne_empty.mp ⟨least, isLeast.1⟩
  cases area with
  | free found => exact found.unique isLeast
  | stale none => exact absurd none full
  | none none => exact absurd none full

/-- If the other files are as before, `create` was safe. -/
theorem Added.safe {directory : Nat → UInt8} {used' slot place : Nat}
    (added : Added disk.entry (entry directory) disk.used used' slot place need filename)
    (wellFormed : disk.WellFormed)
    (absent : ∀ t, Live disk.entry disk.used t → (disk.entry t).name ≠ filename.toCString)
    (chosen : PlaceFor disk.entry disk.num_blocks disk.used need place) (found : place ≠ 0)
    (kept : OthersKept disk (disk.flush directory) filename) :
    CreatesSafely disk.entry disk.num_blocks disk.used need := by
  obtain ⟨result, others⟩ := kept
  have used := added.used_eq wellFormed
  have free : (∀ t, Live disk.entry disk.used t → t < used') →
      place ∈ freePlaces disk.entry disk.num_blocks disk.used need := by
    intro seen
    exact chosen.mem_freePlaces wellFormed found fun t live =>
      added.apart result used live (seen t live)
  have count := added.count
  constructor
  · intro less
    rw [if_pos less] at count
    refine .inl ⟨place, free fun t live => ?_⟩
    have inside := live.1
    omega
  · intro last
    rw [if_neg (by omega)] at count
    have slotBound := added.free.bound
    refine .inr (.inr ?_)
    split at count
    · rename_i first
      -- Only the new file is seen, so there was none.
      refine .inl fun t live => ?_
      obtain ⟨other, name⟩ := wellFormed.sound.named t live
      have different : other ≠ filename := by
        rintro rfl
        exact absent t live name
      have present := wellFormed.files_eq_some_iff.mpr ⟨t, live, name, rfl⟩
      rw [← others other different] at present
      obtain ⟨u, alive, named, -⟩ := result.files_eq_some_iff.mp present
      have inside := alive.1
      rw [used, count] at inside
      obtain rfl : u = slot := by omega
      rw [Disk.flush_entry slotBound, added.new.name] at named
      refine different ?_
      cases other
      cases filename
      simp_all
    · rename_i behind
      have start := chosen.unseen last
      have one : place = 1 := by
        split at start
        · exact start
        · exact absurd start found
      refine .inr ⟨⟨by omega, added.free.first 0 (by omega)⟩, one ▸ free fun t live => ?_⟩
      have inside := live.1
      omega

/-- `create` keeps the files of other names exactly on the disks on which it is safe. -/
theorem create_safe_iff (wellFormed : disk.WellFormed) (valid : 1 ≤ maxsize)
    (absent : disk.files filename = none) :
    OthersKept disk (create disk filename maxsize).1 filename ↔
      CreatesSafely disk.entry disk.num_blocks disk.used (blocksFor maxsize) := by
  constructor
  · intro kept
    rw [wellFormed.files_eq_none_iff] at absent
    have created : Created disk filename (blocksFor maxsize) (create disk filename maxsize) :=
      wellFormed.create_cases
    obtain ⟨result, resultEq⟩ : ∃ result, result = create disk filename maxsize := ⟨_, rfl⟩
    rw [← resultEq] at created kept
    cases created with
    | present live same => exact absurd same (absent _ live)
    | full _ last filled => exact ⟨fun less => by omega, fun _ => .inl filled⟩
    | refused _ chosen =>
        refine ⟨fun less => ?_, fun last => .inr (.inl ?_)⟩
        · exact .inr ((chosen.area less).fresh wellFormed.sound rfl)
        · have start := chosen.unseen last
          split at start
          · omega
          · omega
    | added _ chosen found added => exact added.safe wellFormed absent chosen found kept
  · intro safe
    rcases create_safe wellFormed valid absent safe with
      same | ⟨size, same⟩ | ⟨-, kept, files⟩
    · rw [same]
      exact ⟨wellFormed, fun _ _ => rfl⟩
    · rw [same]
      exact ⟨wellFormed, fun _ _ => rfl⟩
    · refine ⟨kept, fun other different => ?_⟩
      rw [files, Function.update_of_ne different]

theorem create_safe_iff_smallDisk :
    OthersKept smallDisk (create smallDisk nameA 2).1 nameA ↔
      CreatesSafely smallDisk.entry smallDisk.num_blocks smallDisk.used (blocksFor 2) :=
  create_safe_iff smallDisk_empty.1 (by decide) (congrFun smallDisk_empty.2.1 nameA)

/-- If the directory has an end and some gap is wide enough, the new file is in the first one. -/
theorem create_first_fit (wellFormed : disk.WellFormed) (absent : disk.files filename = none)
    (ended : disk.used < maxEntries) {place : Nat}
    (least : IsLeast (freePlaces disk.entry disk.num_blocks disk.used (blocksFor maxsize)) place) :
    (create disk filename maxsize).2 = .complete ∧
      ∃ slot, Live (create disk filename maxsize).1.entry
          (create disk filename maxsize).1.used slot ∧
        NewRecord ((create disk filename maxsize).1.entry slot) place (blocksFor maxsize)
          filename := by
  rw [wellFormed.files_eq_none_iff] at absent
  have created : Created disk filename (blocksFor maxsize) (create disk filename maxsize) :=
    wellFormed.create_cases
  obtain ⟨result, resultEq⟩ : ∃ result, result = create disk filename maxsize := ⟨_, rfl⟩
  rw [← resultEq] at created ⊢
  have start := least.1.1
  cases created with
  | present live same => exact absurd same (absent _ live)
  | full _ last => omega
  | refused _ chosen =>
      have same := (chosen.area ended).eq_of_isLeast least
      omega
  | @added directory used' slot place' _ chosen found added =>
      obtain rfl := (chosen.area ended).eq_of_isLeast least
      have slotEq : (disk.flush directory).entry slot = entry directory slot :=
        Disk.flush_entry added.free.bound
      refine ⟨rfl, slot, ?_, ?_⟩
      · rw [Live, added.used_eq wellFormed, slotEq]
        exact ⟨added.slot_lt, added.new.filled⟩
      · rw [slotEq]
        exact added.new

theorem create_first_fit_smallDisk :
    (create smallDisk nameA 2).2 = .complete ∧
      ∃ slot, Live (create smallDisk nameA 2).1.entry (create smallDisk nameA 2).1.used slot ∧
        NewRecord ((create smallDisk nameA 2).1.entry slot) 1 (blocksFor 2) nameA := by
  obtain ⟨wellFormed, files, used⟩ := smallDisk_empty
  obtain ⟨three, -, -⟩ := wellFormed.num_blocks_le
  have need : blocksFor 2 = 1 := rfl
  have none : ∀ t, ¬ Live smallDisk.entry smallDisk.used t := by
    intro t live
    have inside := live.1
    omega
  refine create_first_fit wellFormed (congrFun files nameA) (by rw [used]; decide)
    ⟨⟨Nat.le_refl 1, by omega, fun t live => absurd live (none t)⟩, fun place free => free.1⟩

end Create

/-! ## Sessions -/

/-- The command does not make `create` go wrong. -/
def CreatesWell (disk : Disk) : Command → Prop
  | .create filename filesize =>
      1 ≤ filesize.toInt → disk.files filename = none →
        CreatesSafely disk.entry disk.num_blocks disk.used (blocksFor filesize.toInt.toNat)
  | _ => True

/-- A file that the command copies is one that the counter of the copying loop can count. -/
def Countable (disk : Disk) : Command → Prop
  | .read filename => ∀ file, disk.files filename = some file → file.contents.length < 2 ^ 31
  | .write _ tfile => tfile.length < 2 ^ 31
  | _ => True

/-- The command is one that the disk answers as a store does. -/
structure Safe (disk : Disk) (command : Command) : Prop where
  createsWell : CreatesWell disk command
  countable : Countable disk command

section Refines

variable {disk : Disk} {filename : FileName}

end Refines

/-- The bytes of the first block that hold neither the tag of the disk nor its directory. -/
def System (a : Nat) : Prop := a < blockSize ∧ (a < 1024 ∨ 1536 ≤ a ∧ a < 4096 ∨ 8192 ≤ a)

instance (a : Nat) : Decidable (System a) := inferInstanceAs (Decidable (_ ∧ _))

section System

variable {disk : Disk} {a : Nat}

/-- Flushing the directory leaves the system area. -/
theorem System.flush (system : System a) (directory : Nat → UInt8) :
    (disk.flush directory).byte a = disk.byte a :=
  Disk.flush_byte (by have parts := system.2; omega)

/-- `format` leaves the system area. -/
theorem System.format (system : System a) : (format disk).byte a = disk.byte a := by
  rw [Bootloader.format, system.flush]
  refine Disk.fwrite_byte fun inside => ?_
  obtain ⟨low, high⟩ := inside
  rw [List.length_append, List.length_replicate] at high
  have length : fs_tag.length = 4 := rfl
  have parts := system.2
  simp only [length] at low high
  omega

/-- `create` leaves the system area. -/
theorem System.create (system : System a) (wellFormed : disk.WellFormed) (filename : FileName)
    (maxsize : Nat) : (create disk filename maxsize).1.byte a = disk.byte a := by
  have created : Created disk filename (blocksFor maxsize)
      (Bootloader.create disk filename maxsize) := wellFormed.create_cases
  obtain ⟨result, resultEq⟩ : ∃ result, result = Bootloader.create disk filename maxsize :=
    ⟨_, rfl⟩
  rw [← resultEq] at created ⊢
  cases created with
  | present => rfl
  | full => rfl
  | refused => rfl
  | added => exact system.flush _

end System

/-- No record in front of the end is empty. -/
def Disk.Undeleted (disk : Disk) : Prop := ∀ t < disk.used, ¬ (disk.entry t).Empty

section Undeleted

variable {disk : Disk} {filename : FileName}

/-- Without deleted files `create` is safe. -/
theorem Disk.Undeleted.createsSafely (undeleted : disk.Undeleted) (need : Nat) :
    CreatesSafely disk.entry disk.num_blocks disk.used need :=
  ⟨fun _ => .inr fun t stale => undeleted t stale.1 stale.2.1, fun _ => .inl undeleted⟩

/-- Adding a record to a directory without deleted ones leaves none. -/
theorem Added.undeleted {directory : Nat → UInt8} {used' slot place need : Nat}
    (added : Added disk.entry (entry directory) disk.used used' slot place need filename)
    (wellFormed : disk.WellFormed) (undeleted : disk.Undeleted) :
    (disk.flush directory).Undeleted := by
  have used := added.used_eq wellFormed
  intro t inside
  rw [used] at inside
  rw [Disk.flush_entry (lt_of_lt_of_le inside added.limit)]
  by_cases here : t = slot
  · rw [here]
    exact added.new.filled
  · rw [added.others t inside here]
    exact undeleted t (added.before here inside)

/-- The command deletes nothing, and what it copies can be counted. -/
structure Keeps (disk : Disk) (command : Command) : Prop where
  noDelete : ∀ filename, command ≠ .delete filename
  countable : Countable disk command

/-- Without deleted records a command that keeps that is safe. -/
theorem Keeps.safe {command : Command} (keeps : Keeps disk command) (undeleted : disk.Undeleted) :
    Safe disk command := by
  refine ⟨?_, keeps.countable⟩
  cases command with
  | create filename filesize => exact fun _ _ => undeleted.createsSafely _
  | _ => trivial

end Undeleted

end SistemasOperativos.Bootloader
