import SistemasOperativos.Bootloader.Bmfs

/-!
# The directory of a disk

What a write to the directory does to its records, and the invariant of the directory: the records
in front of the one that ends it are in use or empty, those in use have different names and blocks
that do not overlap (`Sound`). The loops over the records are characterised by it.
-/

namespace SistemasOperativos.Bootloader

open SistemasOperativos.Foundation

/-! ## Records of bytes -/

section Bytes

variable {directory other : Nat → UInt8} {s t : Nat}

/-- Only its own bytes count for a record. -/
theorem entry_congr (same : ∀ a, Interval.Has ⟨t * 64, t * 64 + 64⟩ a → other a = directory a) :
    entry other t = entry directory t := by
  have part : ∀ offset, offset + 8 ≤ 64 →
      loadNat other (t * 64 + offset) 8 = loadNat directory (t * 64 + offset) 8 := by
    intro offset inside
    refine loadNat_congr fun a has => same a ?_
    unfold Interval.Has at *
    simp only at *
    omega
  have name : (Vector.ofFn fun i : Fin 32 => other (t * 64 + i)) =
      Vector.ofFn fun i : Fin 32 => directory (t * 64 + i) := by
    congr 1
    funext i
    exact same _ ⟨by simp only; omega, by simp only; omega⟩
  rw [entry, entry, name, part 32 (by omega), part 40 (by omega), part 48 (by omega)]

/-- A store into a record leaves the others alone. -/
theorem entry_stored {offset : Nat} {bytes : List UInt8} (inside : offset + bytes.length ≤ 64)
    (apart : t ≠ s) :
    entry (stored directory (s * 64 + offset) bytes) t = entry directory t := by
  refine entry_congr fun a here => stored_outside fun there => ?_
  unfold Interval.Has at here there
  simp only at here there
  omega

/-- Bytes stored in one record leave the other records. -/
theorem entry_stored_front {bytes : List UInt8} (inside : bytes.length ≤ 64) (apart : t ≠ s) :
    entry (stored directory (s * 64) bytes) t = entry directory t := by
  have zero : 0 + bytes.length ≤ 64 := by omega
  simpa using entry_stored zero apart

/-- A field stored in one record leaves the other records. -/
theorem entry_storeNat {offset value : Nat} (inside : offset + 8 ≤ 64) (apart : t ≠ s) :
    entry (storeNat directory (s * 64 + offset) 8 value) t = entry directory t :=
  entry_stored (by rwa [length_littleEndian]) apart

/-- So does a write to the first byte of a record. -/
theorem entry_update {value : UInt8} (apart : t ≠ s) :
    entry (Function.update directory (s * 64) value) t = entry directory t := by
  refine entry_congr fun a here => Function.update_of_ne ?_ ..
  unfold Interval.Has at here
  simp only at here
  omega

/-- The first byte of a record tells whether it ends the directory. -/
theorem entry_ends (directory : Nat → UInt8) (t : Nat) :
    (entry directory t).Ends ↔ directory (t * 64) = 0x00 := by
  simp [entry, BMFSEntry.Ends]

/-- The first byte of a record tells whether it is empty. -/
theorem entry_empty (directory : Nat → UInt8) (t : Nat) :
    (entry directory t).Empty ↔ directory (t * 64) = 0x01 := by
  simp [entry, BMFSEntry.Empty]

/-- The first byte of a record belongs to its name, not to its other fields. -/
theorem entry_update_fields (directory : Nat → UInt8) (s : Nat) (value : UInt8) :
    (entry (Function.update directory (s * 64) value) s).StartingBlock =
        (entry directory s).StartingBlock ∧
      (entry (Function.update directory (s * 64) value) s).ReservedBlocks =
        (entry directory s).ReservedBlocks := by
  have part : ∀ offset, 0 < offset →
      loadNat (Function.update directory (s * 64) value) (s * 64 + offset) 8 =
        loadNat directory (s * 64 + offset) 8 := by
    intro offset positive
    refine loadNat_congr fun a here => Function.update_of_ne ?_ ..
    unfold Interval.Has at here
    simp only at here
    omega
  exact ⟨part 32 (by omega), part 40 (by omega)⟩

/-- Two records that differ in the size of the file at most. -/
structure SameFile (e d : BMFSEntry) : Prop where
  FileName : e.FileName = d.FileName
  StartingBlock : e.StartingBlock = d.StartingBlock
  ReservedBlocks : e.ReservedBlocks = d.ReservedBlocks

namespace SameFile

variable {e d : BMFSEntry}

/-- A record describes the same file as itself. -/
theorem refl (e : BMFSEntry) : SameFile e e := ⟨rfl, rfl, rfl⟩

/-- Records of the same file have the same name. -/
theorem name (same : SameFile e d) : e.name = d.name :=
  congrArg (fun bytes : Vector UInt8 32 => CString.ofBytes bytes.toList) same.FileName

/-- Records of the same file are both deleted or both not. -/
theorem empty (same : SameFile e d) : e.Empty ↔ d.Empty := by
  rw [BMFSEntry.Empty, BMFSEntry.Empty, same.FileName]

/-- Records of the same file both end the directory or both do not. -/
theorem ends (same : SameFile e d) : e.Ends ↔ d.Ends := by
  rw [BMFSEntry.Ends, BMFSEntry.Ends, same.FileName]

end SameFile

/-- `write` changes the size in a record. -/
theorem entry_size {value : Nat} (small : value < 2 ^ 64) :
    SameFile (entry (storeNat directory (s * 64 + 48) 8 value) s) (entry directory s) ∧
      (entry (storeNat directory (s * 64 + 48) 8 value) s).FileSize = value := by
  have part : ∀ offset, offset + 8 ≤ 48 →
      loadNat (storeNat directory (s * 64 + 48) 8 value) (s * 64 + offset) 8 =
        loadNat directory (s * 64 + offset) 8 := by
    intro offset before
    refine loadNat_storeNat_apart fun a here there => ?_
    unfold Interval.Has at here there
    simp only at here there
    omega
  refine ⟨⟨?_, part 32 (by omega), part 40 (by omega)⟩, loadNat_storeNat small⟩
  refine congrArg Vector.ofFn (funext fun i => storeNat_outside fun there => ?_)
  unfold Interval.Has at there
  simp only at there
  omega

/-- The bytes of the name. -/
theorem toList_FileName (directory : Nat → UInt8) (t : Nat) :
    (entry directory t).FileName.toList = loaded directory (t * 64) 32 := by
  have general : ∀ count address,
      List.ofFn (fun i : Fin count => directory (address + i)) =
        loaded directory address count := by
    intro count
    induction count with
    | zero => intro address; rfl
    | succ count ih =>
        intro address
        rw [List.ofFn_succ, loaded, ← ih]
        congr 2
        funext i
        congr 1
        simp only [Fin.val_succ]
        omega
  rw [entry, Vector.toList_ofFn, general]

/-- A name that was copied into a record is the one in it. -/
theorem name_of_holds {filename : FileName}
    (holds : Holds directory (t * 64) (filename.chars ++ [0])) :
    (entry directory t).name = filename.toCString := by
  have short := filename.short
  have length : (filename.chars ++ [0]).length = filename.chars.length + 1 := by simp
  have all : 32 = (filename.chars ++ [0]).length + (31 - filename.chars.length) := by omega
  have split : ∀ count more address, loaded directory address (count + more) =
      loaded directory address count ++ loaded directory (address + count) more := by
    intro count more
    induction count with
    | zero => intro address; simp [loaded]
    | succ count ih =>
        intro address
        rw [show count + 1 + more = count + more + 1 by omega, loaded, loaded, ih,
          List.cons_append, show address + 1 + count = address + (count + 1) by omega]
  have front : filename.chars.takeWhile (fun c => decide (c ≠ 0)) = filename.chars :=
    List.takeWhile_eq_self_iff.mpr fun c member => decide_eq_true (filename.nonzero c member)
  apply CString.ext
  rw [BMFSEntry.name, CString.ofBytes, toList_FileName, all, split, holds.loaded_eq,
    List.append_assoc]
  simp only
  rw [List.takeWhile_append, if_pos (by rw [front])]
  simp

end Bytes

/-! ## The invariant -/

/-- The blocks of a file. -/
def BMFSEntry.blocks (e : BMFSEntry) : Interval :=
  ⟨e.StartingBlock, e.StartingBlock + e.ReservedBlocks⟩

/-- The record is in front of the end and is not empty. -/
def Live (e : Nat → BMFSEntry) (used t : Nat) : Prop := t < used ∧ ¬ (e t).Empty

instance (e : Nat → BMFSEntry) (used t : Nat) : Decidable (Live e used t) :=
  inferInstanceAs (Decidable (_ ∧ _))

/-- The blocks of the record lie between the first block and the last one of the disk. -/
structure BMFSEntry.Placed (e : BMFSEntry) (num_blocks : Nat) : Prop where
  start : 1 ≤ e.StartingBlock
  reserved : 1 ≤ e.ReservedBlocks
  ends : e.StartingBlock + e.ReservedBlocks < num_blocks

/-- The records in use have legal names of their own, blocks of their own, and files that fit. -/
structure Filed (e : Nat → BMFSEntry) (used : Nat) : Prop where
  named : ∀ t, Live e used t → ∃ filename : FileName, (e t).name = filename.toCString
  distinct : ∀ t u, Live e used t → Live e used u → (e t).name = (e u).name → t = u
  apart : ∀ t u, Live e used t → Live e used u → t ≠ u → (e t).blocks.Disjoint (e u).blocks
  sized : ∀ t, Live e used t → (e t).FileSize ≤ (e t).ReservedBlocks * blockSize

/-- The first `used` records are in use or empty. -/
structure Sound (e : Nat → BMFSEntry) (num_blocks used : Nat) : Prop extends Filed e used where
  bound : used ≤ maxEntries
  inUse : ∀ t < used, ¬ (e t).Ends
  ended : used < maxEntries → (e used).Ends
  placed : ∀ t < used, (e t).Placed num_blocks

namespace Filed

variable {e e' : Nat → BMFSEntry} {used used' : Nat}

/-- Records that are in use no more do not count. -/
theorem fewer (filed : Filed e used) (alive : ∀ t, Live e' used' t → Live e used t ∧ e' t = e t) :
    Filed e' used' := by
  refine ⟨fun t live => ?_, fun t u live live' => ?_, fun t u live live' => ?_, fun t live => ?_⟩
  · obtain ⟨old, eq⟩ := alive t live
    rw [eq]
    exact filed.named t old
  · obtain ⟨old, eq⟩ := alive t live
    obtain ⟨old', eq'⟩ := alive u live'
    rw [eq, eq']
    exact filed.distinct t u old old'
  · obtain ⟨old, eq⟩ := alive t live
    obtain ⟨old', eq'⟩ := alive u live'
    rw [eq, eq']
    exact filed.apart t u old old'
  · obtain ⟨old, eq⟩ := alive t live
    rw [eq]
    exact filed.sized t old

/-- A record that is new, or changed. -/
theorem replace (filed : Filed e used) (slot : Nat)
    (alive : ∀ t, Live e' used' t → t ≠ slot → Live e used t ∧ e' t = e t)
    (named : ∃ filename : FileName, (e' slot).name = filename.toCString)
    (distinct : ∀ t, Live e used t → t ≠ slot → (e t).name ≠ (e' slot).name)
    (apart : ∀ t, Live e used t → t ≠ slot → (e t).blocks.Disjoint (e' slot).blocks)
    (sized : (e' slot).FileSize ≤ (e' slot).ReservedBlocks * blockSize) : Filed e' used' := by
  refine ⟨fun t live => ?_, fun t u live live' same => ?_, fun t u live live' different => ?_,
    fun t live => ?_⟩
  · by_cases here : t = slot
    · rw [here]
      exact named
    · obtain ⟨old, eq⟩ := alive t live here
      rw [eq]
      exact filed.named t old
  · by_cases here : t = slot
    · by_cases there : u = slot
      · rw [here, there]
      · obtain ⟨old, eq⟩ := alive u live' there
        rw [here, eq] at same
        exact absurd same.symm (distinct u old there)
    · obtain ⟨old, eq⟩ := alive t live here
      by_cases there : u = slot
      · rw [there, eq] at same
        exact absurd same (distinct t old here)
      · obtain ⟨old', eq'⟩ := alive u live' there
        rw [eq, eq'] at same
        exact filed.distinct t u old old' same
  · by_cases here : t = slot
    · have there : u ≠ slot := fun same => different (here.trans same.symm)
      obtain ⟨old, eq⟩ := alive u live' there
      rw [here, eq]
      exact (apart u old there).symm
    · obtain ⟨old, eq⟩ := alive t live here
      by_cases there : u = slot
      · rw [there, eq]
        exact apart t old here
      · obtain ⟨old', eq'⟩ := alive u live' there
        rw [eq, eq']
        exact filed.apart t u old old' different
  · by_cases here : t = slot
    · rw [here]
      exact sized
    · obtain ⟨old, eq⟩ := alive t live here
      rw [eq]
      exact filed.sized t old

end Filed

namespace Sound

variable {directory : Nat → UInt8} {e : Nat → BMFSEntry} {num_blocks used : Nat}

/-! ### The loops over the records -/

/-- `findfile` finds the record in use that has the name. -/
theorem findfileLoop_eq_some_iff (sound : Sound (entry directory) num_blocks used)
    {filename : FileName} {remaining tint t : Nat} (all : tint + remaining = maxEntries)
    (front : tint ≤ used) :
    findfileLoop directory filename remaining tint = some t ↔
      tint ≤ t ∧ Live (entry directory) used t ∧
        (entry directory t).name = filename.toCString := by
  induction remaining generalizing tint with
  | zero =>
      refine ⟨nofun, fun ⟨behind, live, _⟩ => ?_⟩
      have last := live.1
      have bound := sound.bound
      omega
  | succ remaining ih =>
      rw [findfileLoop]
      rcases Nat.eq_or_lt_of_le front with rfl | inside
      · have ends := sound.ended (by omega)
        rw [if_pos ends]
        refine ⟨nofun, fun ⟨behind, live, _⟩ => absurd live.1 (by omega)⟩
      · have next : findfileLoop directory filename remaining (tint + 1) = some t ↔ _ :=
          ih (by omega) (by omega)
        rw [if_neg (sound.inUse tint inside)]
        split
        · rename_i empty
          rw [next]
          constructor
          · rintro ⟨behind, rest⟩
            exact ⟨by omega, rest⟩
          · rintro ⟨behind, live, same⟩
            refine ⟨?_, live, same⟩
            rcases Nat.eq_or_lt_of_le behind with rfl | later
            · exact absurd empty live.2
            · exact later
        · rename_i filled
          split
          · rename_i found
            constructor
            · intro result
              obtain rfl := Option.some.inj result
              exact ⟨Nat.le_refl _, ⟨inside, filled⟩, found⟩
            · rintro ⟨-, live, same⟩
              rw [sound.distinct tint t ⟨inside, filled⟩ live (found.trans same.symm)]
          · rename_i other
            rw [next]
            constructor
            · rintro ⟨behind, rest⟩
              exact ⟨by omega, rest⟩
            · rintro ⟨behind, live, same⟩
              refine ⟨?_, live, same⟩
              rcases Nat.eq_or_lt_of_le behind with rfl | later
              · exact absurd same other
              · exact later

/-- `findfile` finds a record exactly if it is in use and has the name. -/
theorem findfile_eq_some_iff (sound : Sound (entry directory) num_blocks used)
    {filename : FileName} {t : Nat} :
    findfile directory filename = some t ↔
      Live (entry directory) used t ∧ (entry directory t).name = filename.toCString := by
  rw [findfile, sound.findfileLoop_eq_some_iff (Nat.zero_add _) (Nat.zero_le _)]
  exact and_iff_right (Nat.zero_le t)

/-- `findfile` finds nothing exactly if no record in use has the name. -/
theorem findfile_eq_none_iff (sound : Sound (entry directory) num_blocks used)
    {filename : FileName} :
    findfile directory filename = none ↔
      ∀ t, Live (entry directory) used t → (entry directory t).name ≠ filename.toCString := by
  constructor
  · intro none t live same
    rw [sound.findfile_eq_some_iff.mpr ⟨live, same⟩] at none
    cases none
  · intro absent
    cases found : findfile directory filename with
    | none => rfl
    | some t =>
        obtain ⟨live, same⟩ := sound.findfile_eq_some_iff.mp found
        exact absurd same (absent t live)

/-- The rows of `list` are the records in use. -/
theorem listLoop_eq (sound : Sound (entry directory) num_blocks used) {remaining tint : Nat}
    (all : tint + remaining = maxEntries) (front : tint ≤ used) :
    listLoop directory remaining tint =
      ((List.range' tint (used - tint)).filter fun t => ¬ (entry directory t).Empty).map fun t =>
        ((entry directory t).name, (entry directory t).FileSize,
          (entry directory t).ReservedBlocks * 2 % 2 ^ 64) := by
  induction remaining generalizing tint with
  | zero =>
      have bound := sound.bound
      rw [show used - tint = 0 by omega]
      rfl
  | succ remaining ih =>
      rw [listLoop]
      rcases Nat.eq_or_lt_of_le front with rfl | inside
      · rw [if_pos (sound.ended (by omega)), Nat.sub_self]
        rfl
      · have next : listLoop directory remaining (tint + 1) = _ := ih (by omega) (by omega)
        rw [if_neg (sound.inUse tint inside), next,
          show used - tint = (used - (tint + 1)) + 1 by omega, List.range'_succ]
        split
        · rename_i empty
          rw [List.filter_cons_of_neg (by simpa using empty)]
        · rename_i filled
          rw [List.filter_cons_of_pos (by simpa using filled), List.map_cons]

/-- What the first loop of `create` counts. -/
theorem countFiles_found (sound : Sound (entry directory) num_blocks used)
    {remaining tint slot : Nat} (all : tint + remaining = maxEntries) (front : tint ≤ used) :
    countFiles directory remaining tint (some slot) =
      (if used < maxEntries then used else 0, some slot) := by
  induction remaining generalizing tint with
  | zero =>
      have bound := sound.bound
      rw [countFiles, if_neg (by omega)]
  | succ remaining ih =>
      rw [countFiles]
      rcases Nat.eq_or_lt_of_le front with rfl | inside
      · rw [if_pos (sound.ended (by omega)), if_pos (by omega), Option.getD_some]
      · rw [if_neg (sound.inUse tint inside), Option.getD_some, ih (by omega) (by omega), ite_self]

/-- The place for a new record: the first empty record, else the one that ends the directory. -/
structure FreeSlot (e : Nat → BMFSEntry) (used slot : Nat) : Prop where
  bound : slot < maxEntries
  front : slot ≤ used
  empty : slot < used → (e slot).Empty
  first : ∀ t < slot, ¬ (e t).Empty

/-- The scan of `create`, as long as no deleted record is behind it: it finds the first free
slot, if there is one. -/
theorem countFiles_none (sound : Sound (entry directory) num_blocks used)
    {remaining tint : Nat} (all : tint + remaining = maxEntries) (front : tint ≤ used)
    (before : ∀ t < tint, ¬ (entry directory t).Empty) :
    (countFiles directory remaining tint none = (0, none) ∧ used = maxEntries ∧
        ∀ t < used, ¬ (entry directory t).Empty) ∨
      ∃ slot, countFiles directory remaining tint none =
          (if used < maxEntries then used else 0, some slot) ∧
        FreeSlot (entry directory) used slot := by
  induction remaining generalizing tint with
  | zero =>
      have bound := sound.bound
      refine .inl ⟨rfl, by omega, fun t inside => before t (by omega)⟩
  | succ remaining ih =>
      rw [countFiles]
      rcases Nat.eq_or_lt_of_le front with rfl | inside
      · refine .inr ⟨tint, ?_, by omega, Nat.le_refl _, fun less => by omega, before⟩
        rw [if_pos (sound.ended (by omega)), if_pos (by omega), Option.getD_none]
      · rw [if_neg (sound.inUse tint inside)]
        split
        · rename_i empty
          refine .inr ⟨tint, ?_, by omega, front, fun _ => empty, before⟩
          rw [Option.getD_none, sound.countFiles_found (by omega) (by omega)]
        · rename_i filled
          refine ih (by omega) (by omega) fun t less => ?_
          rcases Nat.eq_or_lt_of_le (Nat.le_of_lt_succ less) with rfl | earlier
          · exact filled
          · exact before t earlier

/-! ### Changes of a record -/

/-- Only the records up to the one that ends the directory count. -/
theorem congr {e' : Nat → BMFSEntry} (sound : Sound e num_blocks used)
    (same : ∀ t < maxEntries, e' t = e t) : Sound e' num_blocks used := by
  have bound := sound.bound
  have here : ∀ t < used, e' t = e t := fun t inside => same t (by omega)
  refine ⟨sound.fewer fun t live => ?_, bound, fun t inside => ?_, fun less => ?_,
    fun t inside => ?_⟩
  · have eq := here t live.1
    exact ⟨⟨live.1, eq ▸ live.2⟩, eq⟩
  · rw [here t inside]
    exact sound.inUse t inside
  · rw [same used less]
    exact sound.ended less
  · rw [here t inside]
    exact sound.placed t inside

/-- A record of the directory that changes, and the records in use have files as before. -/
theorem change {e' : Nat → BMFSEntry} (sound : Sound e num_blocks used) {slot : Nat}
    (filed : Filed e' used) (inside : slot < used)
    (others : ∀ t < maxEntries, t ≠ slot → e' t = e t) (still : ¬ (e' slot).Ends)
    (place : (e' slot).Placed num_blocks) : Sound e' num_blocks used := by
  have bound := sound.bound
  refine ⟨filed, bound, fun t less => ?_, fun less => ?_, fun t less => ?_⟩
  · by_cases here : t = slot
    · rw [here]
      exact still
    · rw [others t (by omega) here]
      exact sound.inUse t less
  · rw [others used less (by omega)]
    exact sound.ended less
  · by_cases here : t = slot
    · rw [here]
      exact place
    · rw [others t (by omega) here]
      exact sound.placed t less

/-- A record that was marked as empty. -/
theorem delete {e' : Nat → BMFSEntry} (sound : Sound e num_blocks used) {slot : Nat}
    (inside : slot < used) (others : ∀ t < maxEntries, t ≠ slot → e' t = e t)
    (empty : (e' slot).Empty) (place : (e' slot).Placed num_blocks) : Sound e' num_blocks used := by
  have bound := sound.bound
  refine sound.change (sound.fewer fun t live => ?_) inside others (fun ends => ?_) place
  · have apart : t ≠ slot := by
      rintro rfl
      exact live.2 empty
    have eq := others t (lt_of_lt_of_le live.1 bound) apart
    exact ⟨⟨live.1, eq ▸ live.2⟩, eq⟩
  · exact absurd (ends.symm.trans empty) (by decide)

/-- A record whose file got another size. -/
theorem resize {e' : Nat → BMFSEntry} (sound : Sound e num_blocks used) {slot : Nat}
    (live : Live e used slot) (others : ∀ t < maxEntries, t ≠ slot → e' t = e t)
    (same : SameFile (e' slot) (e slot))
    (sized : (e' slot).FileSize ≤ (e' slot).ReservedBlocks * blockSize) :
    Sound e' num_blocks used := by
  have bound := sound.bound
  have blocks : (e' slot).blocks = (e slot).blocks := by
    rw [BMFSEntry.blocks, BMFSEntry.blocks, same.StartingBlock, same.ReservedBlocks]
  refine sound.change (sound.replace slot (fun t alive apart => ?_) ?_ ?_ ?_ sized) live.1
    others ?_ ?_
  · have eq := others t (lt_of_lt_of_le alive.1 bound) apart
    exact ⟨⟨alive.1, eq ▸ alive.2⟩, eq⟩
  · rw [same.name]
    exact sound.named slot live
  · intro t alive apart equal
    rw [same.name] at equal
    exact apart (sound.distinct t slot alive live equal)
  · intro t alive apart
    rw [blocks]
    exact sound.apart t slot alive live apart
  · rw [same.ends]
    exact sound.inUse slot live.1
  · obtain ⟨start, reserved, ends⟩ := sound.placed slot live.1
    exact ⟨same.StartingBlock ▸ start, same.ReservedBlocks ▸ reserved,
      same.StartingBlock ▸ same.ReservedBlocks ▸ ends⟩

end Sound

end SistemasOperativos.Bootloader
