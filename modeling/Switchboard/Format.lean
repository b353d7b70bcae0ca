import Switchboard.Text

namespace Switchboard

structure FormatMask where
  bits : UInt64
deriving DecidableEq, Inhabited

namespace FormatMask

def empty : FormatMask := ⟨0⟩
def all : FormatMask := ⟨0xFFFFFFFFFFFFFFFF⟩

def g723 : FormatMask := ⟨0x1⟩
def gsm : FormatMask := ⟨0x2⟩
def ulaw : FormatMask := ⟨0x4⟩
def alaw : FormatMask := ⟨0x8⟩
def g726aal2 : FormatMask := ⟨0x10⟩
def adpcm : FormatMask := ⟨0x20⟩
def slinear : FormatMask := ⟨0x40⟩
def lpc10 : FormatMask := ⟨0x80⟩
def g729a : FormatMask := ⟨0x100⟩
def speex : FormatMask := ⟨0x200⟩
def ilbc : FormatMask := ⟨0x400⟩
def g726 : FormatMask := ⟨0x800⟩
def g722 : FormatMask := ⟨0x1000⟩
def siren7 : FormatMask := ⟨0x2000⟩
def siren14 : FormatMask := ⟨0x4000⟩
def slinear16 : FormatMask := ⟨0x8000⟩

def audio : FormatMask := ⟨0xFFFF⟩

/-- The audio formats, best first. -/
def preference : List FormatMask :=
  [ulaw, alaw, g722, siren14, siren7, g726, g726aal2, adpcm, slinear16, slinear, g729a, speex,
    ilbc, gsm, lpc10, g723]

def isEmpty (m : FormatMask) : Bool := m.bits == 0

def union (a b : FormatMask) : FormatMask := ⟨a.bits ||| b.bits⟩

def inter (a b : FormatMask) : FormatMask := ⟨a.bits &&& b.bits⟩

instance : OrOp FormatMask := ⟨union⟩
instance : AndOp FormatMask := ⟨inter⟩

def contains (a b : FormatMask) : Bool := a.bits &&& b.bits == b.bits

def intersects (a b : FormatMask) : Bool := a.bits &&& b.bits != 0

def best (m : FormatMask) : Option FormatMask := preference.find? m.intersects

def display (m : FormatMask) : String := "0x" ++ Text.hex m.bits.toNat

end FormatMask

structure ChannelFormats where
  native : FormatMask
  read : FormatMask
  write : FormatMask
  rawRead : FormatMask
  rawWrite : FormatMask
deriving DecidableEq, Inhabited

def ChannelFormats.uniform (m : FormatMask) : ChannelFormats := ⟨m, m, m, m, m⟩

end Switchboard
