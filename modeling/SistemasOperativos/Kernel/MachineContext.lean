import SistemasOperativos.Foundation.WordStack
import SistemasOperativos.Kernel.Process

/-!
# Contexts on the stack

What libasm.asm pushes to save a thread and pops to go on with it. A tick of the timer saves what
the processor pushed and the registers as `timerTickHandlerC` left them, `_yield` a context that
returns to its caller, and `fillStackFrame` makes up the context a new thread starts with. Each
of them leaves the words of a `StackFrame` on the stack (`holds_timerTick`, `holds_yield`,
`holds_fillStackFrame`), and these are what `popState` and `iretq` take from it (`pop_eq`).
-/

namespace SistemasOperativos.Kernel

open SistemasOperativos.Foundation

/-- The registers that `pushState` saves. -/
inductive Register where
  | rax | rbx | rcx | rdx | rbp | rdi | rsi | r8 | r9 | r10 | r11 | r12 | r13 | r14 | r15 | fs | gs
  deriving DecidableEq, Repr

/-- The macro `pushState`. -/
def pushState : List Register :=
  [.rax, .rbx, .rcx, .rdx, .rbp, .rdi, .rsi, .r8, .r9, .r10, .r11, .r12, .r13, .r14, .r15, .fs, .gs]

/-- The macro `popState`. -/
def popState : List Register :=
  [.gs, .fs, .r15, .r14, .r13, .r12, .r11, .r10, .r9, .r8, .rsi, .rdi, .rbp, .rdx, .rcx, .rbx, .rax]

/-- Every register is popped. -/
theorem mem_popState (register : Register) : register ∈ popState := by
  cases register <;> decide

/-- What is pushed is popped in the opposite order. -/
theorem reverse_map_pushState (general : Register → UInt64) :
    (pushState.map general).reverse = popState.map general := rfl

/-- The registers of a thread. -/
structure Context where
  general : Register → UInt64
  rip : UInt64
  cs : UInt64
  eflags : UInt64
  rsp : UInt64
  ss : UInt64

namespace Context

/-- The words of `StackFrame` up to `ss`. -/
def frame (context : Context) : List UInt64 :=
  popState.map context.general ++
    [context.rip, context.cs, context.eflags, context.rsp, context.ss]

/-- Size of these words in bytes. -/
def FRAME_SIZE : Nat := 176

/-- A frame takes `FRAME_SIZE` bytes. -/
theorem length_frame (context : Context) : 8 * context.frame.length = FRAME_SIZE := rfl

/-- `popState` and `iretq`, with what was in the registers before. -/
def pop (memory : Nat → UInt8) (rsp : Nat) (general : Register → UInt64) : Context where
  general := popRegisters memory rsp general popState
  rip := loadWord memory (rsp + 136)
  cs := loadWord memory (rsp + 144)
  eflags := loadWord memory (rsp + 152)
  rsp := loadWord memory (rsp + 160)
  ss := loadWord memory (rsp + 168)

/-- What stands on the stack as a frame is the context that is popped. -/
theorem pop_eq {memory : Nat → UInt8} {rsp : Nat} {context : Context}
    (holds : HoldsWords memory rsp context.frame) (general : Register → UInt64) :
    pop memory rsp general = context := by
  obtain ⟨registers, hook⟩ := HoldsWords.append_iff.mp holds
  have popped : popRegisters memory rsp general popState = context.general := by
    funext register
    rw [registers.popped, if_pos (mem_popState register)]
  have rip := hook.loadWord_eq
  have hook := (HoldsWords.cons_iff.mp hook).2
  have cs := hook.loadWord_eq
  have hook := (HoldsWords.cons_iff.mp hook).2
  have eflags := hook.loadWord_eq
  have hook := (HoldsWords.cons_iff.mp hook).2
  have stack := hook.loadWord_eq
  have ss := (HoldsWords.cons_iff.mp hook).2.loadWord_eq
  rw [pop, popped]
  exact congr (congr (congr (congr (congrArg (Context.mk context.general) rip) cs) eflags) stack) ss

/-! ## A tick of the timer -/

/-- What the processor pushes when it takes an interrupt. -/
def interruptFrame (context : Context) : List UInt64 :=
  [context.ss, context.rsp, context.eflags, context.cs, context.rip]

/-- Where it pushes: the stack pointer aligned to 16 bytes. -/
def interruptStack (context : Context) : Nat := context.rsp.toNat - context.rsp.toNat % 16

/-- `timerTickHandler` before it calls `switchUserToKernel`: memory and stack pointer.
`timerTickHandlerC` writes the bytes `handling` and leaves `registers`. -/
def timerTickHandler (context : Context) (memory : Nat → UInt8) (registers : Register → UInt64)
    (handling : List (Nat × UInt8)) : (Nat → UInt8) × Nat :=
  let interrupted := pushWords memory context.interruptStack context.interruptFrame
  pushWords (writeBytes interrupted.1 handling) interrupted.2 (pushState.map registers)

/-- The context that a tick saves. -/
def interrupted (context : Context) (registers : Register → UInt64) : Context :=
  { context with general := registers }

section Tick

variable {context : Context} {memory : Nat → UInt8} {registers : Register → UInt64}
  {handling : List (Nat × UInt8)}

/-- The interrupt leaves the stack pointer below the frame. -/
theorem timerTickHandler_rsp : (context.timerTickHandler memory registers handling).2 =
    context.interruptStack - FRAME_SIZE := by
  rw [timerTickHandler, pushWords_rsp, pushWords_rsp, Nat.sub_sub]
  rfl

/-- The frame of a tick stands on the stack, when `timerTickHandlerC` leaves alone what the
processor pushed. -/
theorem holds_timerTick (room : FRAME_SIZE ≤ context.interruptStack)
    (below : ∀ write ∈ handling,
      ¬ Interval.Has ⟨context.interruptStack - 40, context.interruptStack⟩ write.1) :
    HoldsWords (context.timerTickHandler memory registers handling).1
      (context.interruptStack - FRAME_SIZE) (context.interrupted registers).frame := by
  unfold FRAME_SIZE at room
  have nothing : HoldsWords memory context.interruptStack [] := .nil memory _
  have pushed := nothing.pushWords context.interruptFrame
    (show 40 ≤ context.interruptStack by omega)
  rw [List.append_nil] at pushed
  have kept : HoldsWords (writeBytes
      (pushWords memory context.interruptStack context.interruptFrame).1 handling)
      (context.interruptStack - 8 * context.interruptFrame.length)
      context.interruptFrame.reverse := by
    refine pushed.congr fun a inside => writeBytes_outside fun write member same =>
      below write member ?_
    have length : 8 * context.interruptFrame.reverse.length = 40 := rfl
    have start : 8 * context.interruptFrame.length = 40 := rfl
    rw [length, start] at inside
    unfold Interval.Has at inside ⊢
    simp only at inside ⊢
    omega
  have saved := kept.pushWords (pushState.map registers)
    (show 136 ≤ context.interruptStack - 40 by omega)
  rw [reverse_map_pushState] at saved
  rw [timerTickHandler, pushWords_rsp]
  rwa [show context.interruptStack - FRAME_SIZE =
    context.interruptStack - 8 * context.interruptFrame.length -
      8 * (pushState.map registers).length by rw [Nat.sub_sub]; rfl]

/-- A tick changes nothing but the frame and what `timerTickHandlerC` writes. -/
theorem timerTickHandler_outside (room : FRAME_SIZE ≤ context.interruptStack) {a : Nat}
    (outside : ¬ Interval.Has ⟨context.interruptStack - FRAME_SIZE, context.interruptStack⟩ a)
    (unhandled : ∀ write ∈ handling, write.1 ≠ a) :
    (context.timerTickHandler memory registers handling).1 a = memory a := by
  unfold FRAME_SIZE at room outside
  unfold Interval.Has at outside
  simp only at outside
  have hook : (pushWords memory context.interruptStack context.interruptFrame).2 =
      context.interruptStack - 40 := pushWords_rsp
  rw [timerTickHandler, pushWords_outside, writeBytes_outside unhandled, pushWords_outside]
  · exact show 40 ≤ context.interruptStack by omega
  · change ¬ Interval.Has ⟨context.interruptStack - 40, context.interruptStack⟩ a
    unfold Interval.Has
    simp only
    omega
  · rw [hook]
    exact show 136 ≤ context.interruptStack - 40 by omega
  · rw [hook]
    change ¬ Interval.Has ⟨context.interruptStack - 40 - 136, context.interruptStack - 40⟩ a
    unfold Interval.Has
    simp only
    omega

end Tick

/-! ## `_yield` -/

/-- What `_yield` pushes before `pushState`, with the address of its label `.ret`. -/
def yieldFrame (context : Context) (ret : UInt64) : List UInt64 :=
  [0, 0, context.rsp, context.eflags, 0x008, ret]

/-- `_yield` before it calls `next_process`: memory and stack pointer. -/
def _yield (context : Context) (ret : UInt64) (memory : Nat → UInt8) : (Nat → UInt8) × Nat :=
  pushWords memory context.rsp.toNat (context.yieldFrame ret ++
    pushState.map (Function.update context.general .rax context.rsp))

/-- The context that `_yield` saves: it goes on at `.ret`. -/
def yielded (context : Context) (ret : UInt64) : Context where
  general := Function.update context.general .rax context.rsp
  rip := ret
  cs := 0x008
  eflags := context.eflags
  rsp := context.rsp
  ss := 0

/-- Size of what `_yield` pushes: a frame and a word above it. -/
def YIELD_SIZE : Nat := 184

section Yield

variable {context : Context} {ret : UInt64} {memory : Nat → UInt8}

/-- `_yield` leaves the stack pointer below the frame. -/
theorem yield_rsp : (context._yield ret memory).2 = context.rsp.toNat - YIELD_SIZE := by
  rw [_yield, pushWords_rsp]
  rfl

/-- `_yield` pushes the frame of the caller. -/
theorem holds_yield (room : YIELD_SIZE ≤ context.rsp.toNat) :
    HoldsWords (context._yield ret memory).1 (context.rsp.toNat - YIELD_SIZE)
      (context.yielded ret).frame := by
  have nothing : HoldsWords memory context.rsp.toNat [] := .nil memory _
  have pushed := nothing.pushWords (context.yieldFrame ret ++
    pushState.map (Function.update context.general .rax context.rsp)) room
  have words : (context.yieldFrame ret ++
      pushState.map (Function.update context.general .rax context.rsp)).reverse ++ [] =
      (context.yielded ret).frame ++ [0] := rfl
  rw [words] at pushed
  exact (HoldsWords.append_iff.mp pushed).1

/-- `_yield` writes its frame only. -/
theorem yield_outside (room : YIELD_SIZE ≤ context.rsp.toNat) {a : Nat}
    (outside : ¬ Interval.Has ⟨context.rsp.toNat - YIELD_SIZE, context.rsp.toNat⟩ a) :
    (context._yield ret memory).1 a = memory a :=
  pushWords_outside room outside

end Yield

/-! ## New threads -/

/-- The context that `fillStackFrame` makes up, with the address of `callProcess`. -/
def first (callProcess entryPoint args : UInt64) (userStack : Nat) : Context where
  general
    | .gs => 0x001
    | .fs => 0x002
    | .r15 => 0x003
    | .r14 => 0x004
    | .r13 => 0x005
    | .r12 => 0x006
    | .r11 => 0x007
    | .r10 => 0x008
    | .r9 => 0x009
    | .r8 => 0x00A
    | .rsi => entryPoint
    | .rdi => entryPoint
    | .rbp => 0x00D
    | .rdx => args
    | .rcx => args
    | .rbx => 0x010
    | .rax => 0x011
  rip := callProcess
  cs := 0x008
  eflags := 0x202
  -- The address of the field `base`, behind the words that are popped.
  rsp := UInt64.ofNat (Scheduler.fillStackFrame userStack + FRAME_SIZE)
  ss := 0x000

/-- `frame->base`. -/
def base (userStack : Nat) : UInt64 := UInt64.ofNat (userStack - 51 * sizeofStackFrame)

/-- The memory after `fillStackFrame`. -/
def fillStackFrame (callProcess entryPoint args : UInt64) (userStack : Nat)
    (memory : Nat → UInt8) : Nat → UInt8 :=
  stored memory (Scheduler.fillStackFrame userStack)
    (wordsBytes ((first callProcess entryPoint args userStack).frame ++ [base userStack]))

section Fill

variable {callProcess entryPoint args : UInt64} {userStack : Nat} {memory : Nat → UInt8}

/-- `fillStackFrame` writes the frame of a thread that has not run. -/
theorem holds_fillStackFrame :
    HoldsWords (fillStackFrame callProcess entryPoint args userStack memory)
      (Scheduler.fillStackFrame userStack) (first callProcess entryPoint args userStack).frame :=
  (HoldsWords.append_iff.mp (HoldsWords.stored memory _ _)).1

/-- `fillStackFrame` writes a `StackFrame` and nothing else. -/
theorem fillStackFrame_outside {a : Nat}
    (outside : ¬ Interval.Has ⟨Scheduler.fillStackFrame userStack,
      Scheduler.fillStackFrame userStack + sizeofStackFrame⟩ a) :
    fillStackFrame callProcess entryPoint args userStack memory a = memory a := by
  refine stored_outside ?_
  rw [length_wordsBytes]
  exact outside

end Fill

end Context

end SistemasOperativos.Kernel
