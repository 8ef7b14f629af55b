/-
Calls that change something even when they fail.

A call that writes may be turned down half way. What it wrote until then
stays written, so a refusal hands back the state it leaves behind
together with the reason.
-/
import Http2.Error

namespace Http2

/-- A refusal: the reason, and the state as the call left it. -/
structure Refused (σ : Type) where
  error : Error
  left : σ

/-- The outcome of a call on a state: the state after it, or a
refusal. -/
abbrev Attempt (σ : Type) : Type := Except (Refused σ) σ

namespace Attempt

variable {σ τ : Type}

/-- The refusal of a call that leaves `s` behind. -/
def refuse (s : σ) (e : Error) : Attempt σ := .error ⟨e, s⟩

/-- The state after a call, whether it was refused or not. -/
def state : Attempt σ → σ
  | .ok s => s
  | .error r => r.left

/-- Why a call was refused, if it was. -/
def error? : Attempt σ → Option Error
  | .ok _ => none
  | .error r => some r.error

/-- Goes on with another call, unless the first was refused. -/
def andThen (a : Attempt σ) (next : σ → Attempt σ) : Attempt σ :=
  match a with
  | .ok s => next s
  | .error r => .error r

/-- A call on a part of a larger state, which `put` puts back. -/
def within (put : σ → τ) : Attempt σ → Attempt τ
  | .ok s => .ok (put s)
  | .error r => .error ⟨r.error, put r.left⟩

/-- A check that touches nothing: if it fails, the call is refused. -/
@[macro_inline]
def guarded (s : σ) (check : Except Error Unit) (next : Attempt σ) :
    Attempt σ :=
  match check with
  | .ok () => next
  | .error e => refuse s e

end Attempt

end Http2
