import CallForms.Text.Quoted

namespace CallForms.Text.Utf8

inductive Reason where
  | invalidStart
  | invalidContinuation
  | truncated
  deriving DecidableEq, Repr

structure Fault where
  reason : Reason
  start : Nat
  stop : Nat
  lead : Nat
  deriving DecidableEq, Repr

structure Partial where
  start : Nat
  lead : Nat
  value : Nat
  owed : Nat
  low : Nat := 0x80
  high : Nat := 0xBF
  deriving DecidableEq, Repr

def Partial.ofLead? (start lead : Nat) : Option Partial :=
  if lead < 0xC2 then none
  else if lead < 0xE0 then some ⟨start, lead, lead - 0xC0, 1, 0x80, 0xBF⟩
  else if lead = 0xE0 then some ⟨start, lead, 0, 2, 0xA0, 0xBF⟩
  else if lead = 0xED then some ⟨start, lead, 0xD, 2, 0x80, 0x9F⟩
  else if lead < 0xF0 then some ⟨start, lead, lead - 0xE0, 2, 0x80, 0xBF⟩
  else if lead = 0xF0 then some ⟨start, lead, 0, 3, 0x90, 0xBF⟩
  else if lead < 0xF4 then some ⟨start, lead, lead - 0xF0, 3, 0x80, 0xBF⟩
  else if lead = 0xF4 then some ⟨start, lead, 4, 3, 0x80, 0x8F⟩
  else none

def Partial.push (p : Partial) (octet : Nat) : Partial :=
  ⟨p.start, p.lead, p.value * 64 + (octet - 0x80), p.owed - 1, 0x80, 0xBF⟩

def decodeFrom : Option Partial → Nat → List UInt8 → Except Fault (List Char)
  | none, _, [] => .ok []
  | some p, position, [] => .error ⟨.truncated, p.start, position, p.lead⟩
  | none, position, octet :: rest =>
    if octet.toNat < 0x80 then
      (decodeFrom none (position + 1) rest).map (Char.ofNat octet.toNat :: ·)
    else
      match Partial.ofLead? position octet.toNat with
      | none => .error ⟨.invalidStart, position, position + 1, octet.toNat⟩
      | some p => decodeFrom (some p) (position + 1) rest
  | some p, position, octet :: rest =>
    if p.low ≤ octet.toNat ∧ octet.toNat ≤ p.high then
      if p.owed = 1 then
        (decodeFrom none (position + 1) rest).map (Char.ofNat (p.push octet.toNat).value :: ·)
      else decodeFrom (some (p.push octet.toNat)) (position + 1) rest
    else .error ⟨.invalidContinuation, p.start, position, p.lead⟩

def decode (octets : List UInt8) : Except Fault String :=
  (decodeFrom none 0 octets).map String.ofList

def encode (text : String) : List UInt8 :=
  text.toUTF8.toList

def Reason.message : Reason → String
  | .invalidStart => "invalid start byte"
  | .invalidContinuation => "invalid continuation byte"
  | .truncated => "unexpected end of data"

def Fault.message (f : Fault) : String :=
  let range :=
    if f.stop = f.start + 1 then s!"byte 0x{hexDigits 2 f.lead} in position {f.start}"
    else s!"bytes in position {f.start}-{f.stop - 1}"
  s!"'utf-8' codec can't decode {range}: {f.reason.message}"

end CallForms.Text.Utf8
