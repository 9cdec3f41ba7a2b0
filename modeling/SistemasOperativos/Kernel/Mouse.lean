import SistemasOperativos.Kernel.Screen

/-!
# The mouse

`mouse_handlerC` of mouse.c. A packet has three bytes; the handler waits for a first
byte with its fourth bit set, leaves the interrupt behind a complete packet, and passes
over bytes that are not of the mouse. The movements are added only where they stay on
the screen, so every selection does (`mouse_stays_on_screen`).

Left out are the attributes and the display memory, where the pointer and the selection
are drawn: nothing reads them. The rows of the screen are an argument of every interrupt,
since other code writes them in between. The last fields of the state record what the
handler did.
-/

namespace SistemasOperativos.Kernel

/-- The arguments of a call of `selection`. -/
structure Selection where
  finit : Int
  cinit : Int
  ffin : Int
  cfin : Int
  deriving DecidableEq, Repr

/-- The variables of mouse.c, `mouseSelect` and `size` of video.c, and what was done so
far: the selections, the indices of `mouseSelect` that were written and the characters
that were pasted. -/
structure Mouse where
  mouse_cycle : UInt8
  mouse_byte : Fin 3 → Int8
  flag : Bool
  x : Int
  y : Int
  xinit : Int
  yinit : Int
  xfin : Int
  yfin : Int
  selecting : Bool
  mouseSelect : Int → UInt8
  size : Int
  selections : List Selection
  written : List Int
  pasted : List UInt8

/-- `getScreen`, converted to a character: 255 outside of the screen. -/
def getScreen (video : Int → Int → UInt8) (f c : Int) : UInt8 :=
  if validPosition f c = false then 255 else video f c

namespace Mouse

/-- The initial values. -/
def initial : Mouse where
  mouse_cycle := 0
  mouse_byte := fun _ => 0
  flag := false
  x := 10
  y := 10
  xinit := 0
  yinit := 0
  xfin := 0
  yfin := 0
  selecting := false
  mouseSelect := fun _ => 0
  size := 0
  selections := []
  written := []
  pasted := []

/-- Write one character of the selected text. -/
def setMouseSelect (mouse : Mouse) (h : Int) (c : UInt8) : Mouse :=
  { mouse with
    mouseSelect := Function.update mouse.mouseSelect h c
    written := mouse.written ++ [h] }

def copyMouse (video : Int → Int → UInt8) (mouse : Mouse) (first last : Int) : Mouse :=
  let size := last - first + 1
  (List.range size.toNat).foldl (fun mouse (h : Nat) =>
    let c := getScreen video ((h + first).tdiv WIDTH) ((h + first).tmod WIDTH)
    mouse.setMouseSelect h (if c = 0 then 32 else c)) { mouse with size }

/-- `selection`. What it draws is left out. -/
def selection (video : Int → Int → UInt8) (mouse : Mouse) (chosen : Selection) : Mouse :=
  copyMouse video { mouse with selections := mouse.selections ++ [chosen] }
    (chosen.finit * WIDTH + chosen.cinit) (chosen.ffin * WIDTH + chosen.cfin)

def paste (mouse : Mouse) : Mouse :=
  { mouse with
    pasted := mouse.pasted ++
      (List.range mouse.size.toNat).map fun (h : Nat) => mouse.mouseSelect h }

/-- The left button: begin a selection or move its end, and select from the earlier of
the two positions; without it the selection is over. -/
def leftButton (video : Int → Int → UInt8) (mouse : Mouse) : Mouse :=
  if mouse.mouse_byte 0 &&& 0x01 ≠ 0 then
    let moved :=
      if mouse.selecting then { mouse with xfin := mouse.x, yfin := mouse.y }
      else
        { mouse with
          selecting := true, xinit := mouse.x, yinit := mouse.y, xfin := mouse.x,
          yfin := mouse.y }
    if moved.yfin < moved.yinit ∨ moved.yfin = moved.yinit ∧ moved.xfin < moved.xinit then
      moved.selection video ⟨moved.yfin, moved.xfin, moved.yinit, moved.xinit⟩
    else moved.selection video ⟨moved.yinit, moved.xinit, moved.yfin, moved.xfin⟩
  else { mouse with selecting := false }

/-- The right button pastes when it is released. -/
def rightButton (mouse : Mouse) : Mouse :=
  if mouse.mouse_byte 0 &&& 0x02 ≠ 0 then { mouse with flag := true }
  else if mouse.flag then { mouse.paste with flag := false }
  else mouse

/-- A movement: the byte with the sign that the first byte of the packet says. -/
def movement (negative : Bool) (byte : Int8) : Int :=
  if negative then (byte.toInt32 ||| 0xFFFFFF00).toInt else byte.toInt

/-- Move the pointer unless it would leave the screen. -/
def move (mouse : Mouse) : Mouse :=
  let d := mouse.mouse_byte 0
  let rel_x := movement (d &&& 0x10 = 0x10) (mouse.mouse_byte 1)
  let rel_y := movement (d &&& 0x20 = 0x20) (mouse.mouse_byte 2)
  let x := mouse.x + rel_x.tdiv 10
  let y := mouse.y - rel_y.tdiv 10
  { mouse with
    x := if x < 80 ∧ 0 ≤ x then x else mouse.x
    y := if y < 25 ∧ 0 ≤ y then y else mouse.y }

/-- A complete packet. One whose movement overflowed is dropped. -/
def packet (video : Int → Int → UInt8) (mouse : Mouse) : Mouse :=
  if mouse.mouse_byte 0 &&& 0x80 ≠ 0 ∨ mouse.mouse_byte 0 &&& 0x40 ≠ 0 then mouse
  else ((mouse.leftButton video).rightButton).move

/-- The `switch` of the handler. -/
def receive (video : Int → Int → UInt8) (mouse : Mouse) (mouse_in : Int8) : Mouse :=
  if mouse.mouse_cycle = 0 then
    { mouse with
      mouse_byte := Function.update mouse.mouse_byte 0 mouse_in
      mouse_cycle := if mouse_in &&& 0x08 = 0 then 0 else 1 }
  else if mouse.mouse_cycle = 1 then
    { mouse with
      mouse_byte := Function.update mouse.mouse_byte 1 mouse_in
      mouse_cycle := 2 }
  else if mouse.mouse_cycle = 2 then
    { packet video
        { mouse with mouse_byte := Function.update mouse.mouse_byte 2 mouse_in } with
      mouse_cycle := 4 }
  else mouse

/-- One interrupt, with the status that is read each time and the byte that is read when
there is one. The status behind the last one is that there is none. -/
def mouse_handlerC (video : Int → Int → UInt8) (mouse : Mouse) :
    List (UInt8 × Int8) → Mouse
  | [] => mouse
  | (status, mouse_in) :: bytes =>
      if status &&& 0x01 = 0 then mouse
      else
        let received :=
          if status &&& 0x20 = 0 then mouse else mouse.receive video mouse_in
        -- the `return` in the first case of the switch
        if status &&& 0x20 ≠ 0 ∧ mouse.mouse_cycle = 0 ∧ mouse_in &&& 0x08 = 0 then received
        else if 4 ≤ received.mouse_cycle then { received with mouse_cycle := 0 }
        else mouse_handlerC video received bytes

/-- A position is on the screen. -/
def Inside (f c : Int) : Prop := (0 ≤ f ∧ f ≤ 24) ∧ 0 ≤ c ∧ c ≤ 79

/-- A selection goes from a position of the screen to the same or a later one. -/
structure Ordered (chosen : Selection) : Prop where
  first : Inside chosen.finit chosen.cinit
  last : Inside chosen.ffin chosen.cfin
  order : chosen.finit < chosen.ffin ∨ chosen.finit = chosen.ffin ∧ chosen.cinit ≤ chosen.cfin

/-- The pointer and both ends of the selection are on the screen, and what was selected
was. -/
structure OnScreen (mouse : Mouse) : Prop where
  pointer : Inside mouse.y mouse.x
  selectionFirst : Inside mouse.yinit mouse.xinit
  selectionLast : Inside mouse.yfin mouse.xfin
  ordered : ∀ chosen ∈ mouse.selections, Ordered chosen
  written : ∀ h ∈ mouse.written, 0 ≤ h ∧ h < 2000
  size : mouse.size ≤ 2000

/-- A selection of the screen has at most as many characters as the screen. -/
theorem Ordered.length {chosen : Selection} (ordered : Ordered chosen) :
    chosen.ffin * WIDTH + chosen.cfin - (chosen.finit * WIDTH + chosen.cinit) + 1 ≤ 2000 := by
  obtain ⟨⟨first, firstColumn⟩, ⟨last, lastColumn⟩, order⟩ := ordered
  simp only [WIDTH]
  omega

/-- The first `count` steps of `copyMouse`. -/
theorem copyCharacters_eq (char : Nat → UInt8) (mouse : Mouse) (count : Nat) :
    ∃ mouseSelect, (List.range count).foldl
        (fun mouse (h : Nat) => mouse.setMouseSelect h (char h)) mouse =
      { mouse with
        mouseSelect
        written := mouse.written ++ (List.range count).map fun (h : Nat) => (h : Int) } := by
  induction count with
  | zero => exact ⟨mouse.mouseSelect, by simp⟩
  | succ count ih =>
      obtain ⟨mouseSelect, copied⟩ := ih
      refine ⟨Function.update mouseSelect count (char count), ?_⟩
      rw [List.range_succ, List.foldl_append, copied]
      simp [setMouseSelect]

/-- `copyMouse` writes one character after another from the start of `mouseSelect` on. -/
theorem copyMouse_eq (video : Int → Int → UInt8) (mouse : Mouse) (first last : Int) :
    ∃ mouseSelect, copyMouse video mouse first last =
      { mouse with
        mouseSelect
        size := last - first + 1
        written := mouse.written ++
          (List.range (last - first + 1).toNat).map fun (h : Nat) => (h : Int) } :=
  copyCharacters_eq _ { mouse with size := last - first + 1 } _

namespace OnScreen

variable {mouse : Mouse}

/-- Drawing a selection leaves the pointer on the screen. -/
theorem selection (onScreen : OnScreen mouse) (video : Int → Int → UInt8) {chosen : Selection}
    (ordered : Ordered chosen) : OnScreen (mouse.selection video chosen) := by
  have length := ordered.length
  obtain ⟨mouseSelect, copied⟩ := copyMouse_eq video
    { mouse with selections := mouse.selections ++ [chosen] }
    (chosen.finit * WIDTH + chosen.cinit) (chosen.ffin * WIDTH + chosen.cfin)
  rw [Mouse.selection, copied]
  refine ⟨onScreen.pointer, onScreen.selectionFirst, onScreen.selectionLast, ?_, ?_, length⟩
  · intro other member
    rcases List.mem_append.mp member with earlier | here
    · exact onScreen.ordered other earlier
    · rw [List.mem_singleton.mp here]
      exact ordered
  · intro h member
    rcases List.mem_append.mp member with earlier | here
    · exact onScreen.written h earlier
    · obtain ⟨n, inside, rfl⟩ := List.mem_map.mp here
      have bound := List.mem_range.mp inside
      omega

/-- The left button leaves the pointer on the screen. -/
theorem leftButton (onScreen : OnScreen mouse) (video : Int → Int → UInt8) :
    OnScreen (mouse.leftButton video) := by
  unfold Mouse.leftButton
  split
  · dsimp only
    -- both ends of the selection are on the screen, moved or not
    generalize marked : (if mouse.selecting then { mouse with xfin := mouse.x, yfin := mouse.y }
      else { mouse with
        selecting := true, xinit := mouse.x, yinit := mouse.y, xfin := mouse.x,
        yfin := mouse.y }) = moved
    have inside : OnScreen moved := by
      subst marked
      split
      · exact { onScreen with selectionLast := onScreen.pointer }
      · exact { onScreen with
          selectionFirst := onScreen.pointer, selectionLast := onScreen.pointer }
    split
    · rename_i earlier
      exact inside.selection video
        ⟨inside.selectionLast, inside.selectionFirst, by dsimp only; omega⟩
    · rename_i later
      exact inside.selection video
        ⟨inside.selectionFirst, inside.selectionLast, by dsimp only; omega⟩
  · exact { onScreen with }

/-- The right button leaves the pointer on the screen. -/
theorem rightButton (onScreen : OnScreen mouse) : OnScreen mouse.rightButton := by
  unfold Mouse.rightButton
  split
  · exact { onScreen with }
  · split
    · exact { onScreen with }
    · exact onScreen

/-- Moving leaves the pointer on the screen. -/
theorem move (onScreen : OnScreen mouse) : OnScreen mouse.move := by
  obtain ⟨⟨above, below⟩, left, right⟩ := onScreen.pointer
  refine { onScreen with pointer := ⟨?_, ?_⟩ }
  · dsimp only [Mouse.move]
    split <;> omega
  · dsimp only [Mouse.move]
    split <;> omega

/-- A packet leaves the pointer on the screen. -/
theorem packet (onScreen : OnScreen mouse) (video : Int → Int → UInt8) :
    OnScreen (mouse.packet video) := by
  unfold Mouse.packet
  split
  · exact onScreen
  · exact ((onScreen.leftButton video).rightButton).move

/-- A byte leaves the pointer on the screen. -/
theorem receive (onScreen : OnScreen mouse) (video : Int → Int → UInt8) (mouse_in : Int8) :
    OnScreen (mouse.receive video mouse_in) := by
  unfold Mouse.receive
  split
  · exact { onScreen with }
  · split
    · exact { onScreen with }
    · split
      · have taken : OnScreen
            { mouse with mouse_byte := Function.update mouse.mouse_byte 2 mouse_in } :=
          { onScreen with }
        exact { taken.packet video with }
      · exact onScreen

end OnScreen

/-- The cycle behind a byte: the handler waits for the next one, or the packet is
complete. -/
theorem receive_cycle (video : Int → Int → UInt8) {mouse : Mouse} (waits : mouse.mouse_cycle < 3)
    (mouse_in : Int8) :
    (mouse.receive video mouse_in).mouse_cycle < 3 ∨
      mouse.mouse_cycle = 2 ∧ (mouse.receive video mouse_in).mouse_cycle = 4 := by
  unfold receive
  split
  · left
    dsimp only
    split <;> decide
  · split
    · exact .inl (by decide : (2 : UInt8) < 3)
    · split
      · rename_i last
        exact .inr ⟨last, rfl⟩
      · exact .inl waits

/-- One interrupt. -/
theorem mouse_handlerC_kept (video : Int → Int → UInt8) {mouse : Mouse}
    (onScreen : OnScreen mouse) (waits : mouse.mouse_cycle < 3)
    (bytes : List (UInt8 × Int8)) :
    OnScreen (mouse.mouse_handlerC video bytes) ∧
      (mouse.mouse_handlerC video bytes).mouse_cycle < 3 := by
  induction bytes generalizing mouse with
  | nil => exact ⟨onScreen, waits⟩
  | cons read bytes ih =>
      obtain ⟨status, mouse_in⟩ := read
      unfold mouse_handlerC
      split
      · exact ⟨onScreen, waits⟩
      · dsimp only
        generalize taken :
          (if status &&& 0x20 = 0 then mouse else mouse.receive video mouse_in) = received
        have kept : OnScreen received := by
          subst taken
          split
          · exact onScreen
          · exact onScreen.receive video mouse_in
        have cycle : received.mouse_cycle < 3 ∨
            mouse.mouse_cycle = 2 ∧ received.mouse_cycle = 4 := by
          subst taken
          split
          · exact .inl waits
          · exact receive_cycle video waits mouse_in
        rcases cycle with next | ⟨last, complete⟩
        · split
          · exact ⟨kept, next⟩
          · split
            · exact ⟨{ kept with }, (by decide : (0 : UInt8) < 3)⟩
            · exact ih kept next
        · -- only a third byte completes a packet
          rw [if_neg fun returned => absurd (last ▸ returned.2.1) (by decide),
            if_pos (by rw [complete]; decide)]
          exact ⟨{ kept with }, (by decide : (0 : UInt8) < 3)⟩

/-- Interrupts one after another, each with what is on the screen then. -/
def interrupts (mouse : Mouse) (streams : List ((Int → Int → UInt8) × List (UInt8 × Int8))) :
    Mouse :=
  streams.foldl (fun mouse stream => mouse.mouse_handlerC stream.1 stream.2) mouse

theorem interrupts_kept {mouse : Mouse} (onScreen : OnScreen mouse)
    (waits : mouse.mouse_cycle < 3)
    (streams : List ((Int → Int → UInt8) × List (UInt8 × Int8))) :
    OnScreen (mouse.interrupts streams) ∧ (mouse.interrupts streams).mouse_cycle < 3 := by
  induction streams generalizing mouse with
  | nil => exact ⟨onScreen, waits⟩
  | cons stream streams ih =>
      obtain ⟨kept, next⟩ := mouse_handlerC_kept stream.1 onScreen waits stream.2
      exact ih kept next

/-- The pointer starts on the screen. -/
theorem initial_onScreen : OnScreen initial where
  pointer := ⟨by decide, by decide⟩
  selectionFirst := ⟨by decide, by decide⟩
  selectionLast := ⟨by decide, by decide⟩
  ordered := fun _ none => absurd none List.not_mem_nil
  written := fun _ none => absurd none List.not_mem_nil
  size := by decide

/-- The pointer is on the screen, the handler waits for a first, second or third byte, every
selection went from a position of the screen to the same or a later one, and `copyMouse` stayed
inside `mouseSelect`. -/
structure StaysOnScreen (mouse : Mouse) : Prop where
  column : 0 ≤ mouse.x ∧ mouse.x ≤ 79
  row : 0 ≤ mouse.y ∧ mouse.y ≤ 24
  cycle : mouse.mouse_cycle = 0 ∨ mouse.mouse_cycle = 1 ∨ mouse.mouse_cycle = 2
  ordered : ∀ chosen ∈ mouse.selections, Ordered chosen
  written : ∀ h ∈ mouse.written, 0 ≤ h ∧ h < WIDTH * HEIGHT
  size : mouse.size ≤ WIDTH * HEIGHT

/-- So it is after any interrupts with any bytes. -/
theorem mouse_stays_on_screen (streams : List ((Int → Int → UInt8) × List (UInt8 × Int8))) :
    StaysOnScreen (initial.interrupts streams) := by
  obtain ⟨onScreen, waits⟩ := interrupts_kept initial_onScreen (by decide) streams
  refine ⟨onScreen.pointer.2, onScreen.pointer.1, ?_, onScreen.ordered, onScreen.written,
    onScreen.size⟩
  have cycle := UInt8.lt_iff_toNat_lt.mp waits
  simp only [← UInt8.toNat_inj]
  have three : (3 : UInt8).toNat = 3 := rfl
  have one : (1 : UInt8).toNat = 1 := rfl
  have two : (2 : UInt8).toNat = 2 := rfl
  have zero : (0 : UInt8).toNat = 0 := rfl
  omega

/-- A drag to the left selects from its end to where it began. -/
example : (initial.interrupts
    [(fun _ _ => 65, [(0x21, 0x19), (0x21, -20), (0x21, 0)]),
      (fun _ _ => 65, [(0x01, 7), (0x21, 0x09), (0x21, 0), (0x21, 0)])]).selections =
    [⟨10, 10, 10, 10⟩, ⟨10, 8, 10, 10⟩] := by
  decide +kernel

end Mouse

end SistemasOperativos.Kernel
