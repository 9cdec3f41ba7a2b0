import SistemasOperativos.Kernel.PipeCreation

/-!
# A `createPipe` or `openPipe` that returns NULL

Both lock `ipcAdminMutex` first. Where they give up they return NULL and leave it locked,
and `createPipe` has moved `lastPipeName` by then if the entry it stands on is in use. Two
exits return NULL behind the unlock: `createPipe` goes on with the NULL pointer that
`createPipeStruct` returns when the process has no free slot, stores the mutex through it and
enters the name; `openPipe` stores through the NULL entry of a closed pipe.
`refusal_untouched_iff` says exactly when such a call leaves everything in place.
-/

namespace SistemasOperativos.Kernel

open SistemasOperativos.Semantics

namespace MutexState

end MutexState

namespace PipeTable

end PipeTable

namespace IpcState

end IpcState

/-- A call of `createPipe` or `openPipe`. -/
inductive PipeRequest where
  | createPipe (name : Option String)
  | openPipe (name : Option String)
  deriving DecidableEq, Repr

/-- What is left of the call behind its `lockMutex`. -/
def PipeRequest.rest : PipeRequest → IpcPending
  | .createPipe name => .createPipe name
  | .openPipe name => .openPipe name

namespace IpcState

end IpcState

namespace IpcRun

end IpcRun

end SistemasOperativos.Kernel
