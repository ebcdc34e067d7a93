import LightShow.Decimal.Digits

namespace LightShow

/-!
# Errors

* `Fault` — why an option, a layout, a color or a record stream is refused;
* `ShowError` — the kinds of failure;
* `Fault.message`, `ShowError.message` — their texts.
-/

/-- Why a value is refused. -/
inductive Fault where
  /-- A color that is not six hexadecimal digits. -/
  | badColor (text : String)
  /-- A layout without segments. -/
  | noSegments
  /-- A segment whose part has no name. -/
  | blankPart
  /-- A segment that ends no later than the one before it. -/
  | unordered (part : String) (previous : UInt16)
  /-- A segment with an infinite coordinate or one that is no number. -/
  | nonFinite (part : String)
  /-- A sampling step of zero. -/
  | zeroStep
  /-- A thread count of zero. -/
  | zeroThreads
  /-- A record stream that ends inside of a record. -/
  | brokenRecord (length : Nat)
  /-- Another reason, given by the caller. -/
  | stated (reason : String)
  deriving DecidableEq

/-- The text of a reason. -/
def Fault.message : Fault → String
  | .badColor text => "color '" ++ text ++ "' must be a #rrggbb hex string"
  | .noSegments => "layout must have at least one segment"
  | .blankPart => "layout segment part must be non-empty"
  | .unordered part previous =>
    "layout segment '" ++ part ++ "' must end after index " ++ decimalText previous.toNat
  | .nonFinite part => "layout segment '" ++ part ++ "' has non-finite coordinates"
  | .zeroStep => "compile 'sample_step_ms' must be > 0"
  | .zeroThreads => "compile 'threads' must be >= 1 when set"
  | .brokenRecord length =>
    "event stream length " ++ decimalText length ++ " is not a multiple of 10"
  | .stated reason => reason

/-- What can go wrong. -/
inductive ShowError where
  /-- A value is refused. -/
  | invalid (fault : Fault)
  /-- A show cannot be compiled. -/
  | compile (reason : String)
  /-- A text holds no project. -/
  | noProject
  /-- A document is not of the form that is read here. -/
  | malformed (detail : String)
  /-- A failure outside of this library. -/
  | other (reason : String)
  deriving DecidableEq

namespace ShowError

/-- The text of an error. -/
def message : ShowError → String
  | .invalid fault => "validation error: " ++ fault.message
  | .compile reason => "compile error: " ++ reason
  | .noProject => "no project data found"
  | .malformed detail => "serialization error: " ++ detail
  | .other reason => reason

/-- Whether a text held no project at all, as against one that cannot be read. -/
def isNoProject : ShowError → Bool
  | .noProject => true
  | _ => false

end ShowError

end LightShow
