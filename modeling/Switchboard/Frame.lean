import Switchboard.Format

namespace Switchboard

abbrev Bytes := List UInt8

inductive ControlKind
  | hangup
  | ring
  | ringing
  | answer
  | busy
  | congestion
  | progress
  | proceeding
  | hold
  | unhold
  | other (code : Int32)
deriving DecidableEq, Inhabited

structure Media where
  format : FormatMask
  payload : Bytes
deriving DecidableEq, Inhabited

inductive Frame
  | voice (media : Media)
  | video (media : Media)
  | control (kind : ControlKind) (data : Bytes)
  | digitBegin (digit : Char)
  | digitEnd (digit : Char) (milliseconds : UInt32)
  | text (text : String)
  | html (subclass : Int32) (data : Bytes)
  | null
deriving DecidableEq, Inhabited

namespace Frame

def wordBytes (n : UInt32) : Bytes :=
  [n.toNat / 16777216, n.toNat / 65536, n.toNat / 256, n.toNat].map UInt8.ofNat

def wordOfBytes? : Bytes → Option UInt32
  | [a, b, c, d] =>
      some (UInt32.ofNat (((a.toNat * 256 + b.toNat) * 256 + c.toNat) * 256 + d.toNat))
  | _ => none

def bare (kind : ControlKind) : Frame := .control kind []

def hangup (cause : UInt32) : Frame := .control .hangup (wordBytes cause)

def isMedia : Frame → Bool
  | voice _ | video _ => true
  | _ => false

def isControl (kind : ControlKind) : Frame → Bool
  | control k _ => k = kind
  | _ => false

def hangupCause : Frame → Option UInt32
  | control .hangup data => some ((wordOfBytes? data).getD 0)
  | _ => none

def kindName : Frame → String
  | voice _ => "voice"
  | video _ => "video"
  | control _ _ => "control"
  | digitBegin _ => "dtmf-begin"
  | digitEnd _ _ => "dtmf-end"
  | text _ => "text"
  | html _ _ => "html"
  | null => "null"

theorem wordOfBytes?_wordBytes (n : UInt32) : wordOfBytes? (wordBytes n) = some n := by
  have h := n.toNat_lt
  simp only [wordBytes, List.map_cons, List.map_nil, wordOfBytes?, Option.some.injEq]
  apply UInt32.toNat_inj.1
  simp only [UInt8.toNat_ofNat', UInt32.toNat_ofNat']
  omega

theorem hangupCause_hangup (cause : UInt32) : (hangup cause).hangupCause = some cause := by
  simp [hangup, hangupCause, wordOfBytes?_wordBytes]

end Frame
end Switchboard
