import ZigbeeHost.Text.Hexadecimal

/-!
# Frames and command keys

A frame carries one command between host and radio. Its key, the subsystem
and the command id, tells which response belongs to which request.
-/

namespace ZigbeeHost

/-- What a frame is: a request with a response, a request or indication
without one, or a response. -/
inductive FrameKind where
  | syncRequest
  | asyncRequest
  | syncResponse
deriving DecidableEq, Repr, Inhabited

namespace FrameKind

/-- The three bits that stand for the kind on the wire. -/
def bits : FrameKind → Nat
  | .syncRequest => 1
  | .asyncRequest => 2
  | .syncResponse => 3

/-- The kind with the given bits, if there is one. -/
def ofBits? : Nat → Option FrameKind
  | 1 => some .syncRequest
  | 2 => some .asyncRequest
  | 3 => some .syncResponse
  | _ => none

/-- The usual abbreviation. -/
def abbreviation : FrameKind → String
  | .syncRequest => "SREQ"
  | .asyncRequest => "AREQ"
  | .syncResponse => "SRSP"

/-- All kinds. -/
def all : List FrameKind := [.syncRequest, .asyncRequest, .syncResponse]

@[simp] theorem ofBits?_bits (kind : FrameKind) : ofBits? kind.bits = some kind := by
  cases kind <;> rfl

theorem ofBits?_eq_some_iff {number : Nat} {kind : FrameKind} :
    ofBits? number = some kind ↔ kind.bits = number := by
  constructor
  · intro found
    unfold ofBits? at found
    split at found <;> first | (obtain rfl := Option.some.inj found; rfl) | simp at found
  · rintro rfl
    exact ofBits?_bits kind

end FrameKind

/-- The part of the radio's firmware that a command belongs to; there are 32
of them, and not all have a name. -/
structure Subsystem where
  id : Fin 32
deriving DecidableEq, Repr, Inhabited

namespace Subsystem

/-- The subsystem in the low five bits of a number. -/
def ofNat (number : Nat) : Subsystem := ⟨Fin.ofNat 32 number⟩

/-- Reserved; the radio sends its error frames here. -/
def reserved : Subsystem := ⟨0⟩
/-- System interface. -/
def system : Subsystem := ⟨1⟩
/-- Application framework. -/
def application : Subsystem := ⟨4⟩
/-- Zigbee device object. -/
def deviceObject : Subsystem := ⟨5⟩
/-- Simple API. -/
def simpleApi : Subsystem := ⟨6⟩
/-- Utilities. -/
def utility : Subsystem := ⟨7⟩
/-- Application configuration, which holds base device commissioning. -/
def commissioning : Subsystem := ⟨15⟩

/-- The conventional name, if the id is assigned. -/
def name? (subsystem : Subsystem) : Option String :=
  match subsystem.id.val with
  | 0 => some "RES0"
  | 1 => some "SYS"
  | 2 => some "MAC"
  | 3 => some "NWK"
  | 4 => some "AF"
  | 5 => some "ZDO"
  | 6 => some "SAPI"
  | 7 => some "UTIL"
  | 8 => some "DEBUG"
  | 9 => some "APP"
  | 15 => some "APP_CNF"
  | 21 => some "GREENPOWER"
  | _ => none

/-- The name, or else the id as a byte. -/
def display (subsystem : Subsystem) : String :=
  match subsystem.name? with
  | some name => name
  | none => Hexadecimal.renderByte (UInt8.ofNat subsystem.id.val)

@[simp] theorem ofNat_id (subsystem : Subsystem) : ofNat subsystem.id.val = subsystem := by
  simp [ofNat]

end Subsystem

/-- What correlates a response with its request. -/
structure CommandKey where
  subsystem : Subsystem
  command : UInt8
deriving DecidableEq, Repr, Inhabited

namespace CommandKey

/-- The key under which the radio rejects requests. -/
def deviceError : CommandKey := { subsystem := .reserved, command := 0 }

/-- The subsystem and the command id as a byte. -/
def display (key : CommandKey) : String :=
  key.subsystem.display ++ "/" ++ Hexadecimal.renderByte key.command

/-- Keys are ordered by subsystem first, then by command id. -/
def order (first second : CommandKey) : Ordering :=
  (compare first.subsystem.id.val second.subsystem.id.val).then
    (compare first.command.toNat second.command.toNat)

end CommandKey

/-- One command on its way between host and radio. -/
structure Frame where
  kind : FrameKind
  subsystem : Subsystem
  command : UInt8
  payload : Bytes
deriving DecidableEq, Repr, Inhabited

namespace Frame

/-- The correlation key of a frame. -/
def key (frame : Frame) : CommandKey :=
  { subsystem := frame.subsystem, command := frame.command }

/-- The frame in one line: its kind, its key and the payload's digits. -/
def display (frame : Frame) : String :=
  frame.kind.abbreviation ++ " " ++ frame.key.display ++ " [" ++
    Hexadecimal.render frame.payload ++ "]"

end Frame

end ZigbeeHost
