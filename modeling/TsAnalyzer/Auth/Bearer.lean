/-
  The bearer token (`tsa_auth_verify_request`, `src/tsa_auth.c`) and its 64-byte signature buffer.

  The signature is the part of the token behind its second dot.  `b64url_decode` gets no size: it
  has OpenSSL decode the whole TEXT into `unsigned char sig[64]`, before any comparison.

  OpenSSL is not modelled: `BIO_read` is a parameter, `BioReadBound` what is assumed of it.
-/
import TsAnalyzer.Lib.Text

namespace TsAnalyzer.Auth

open Lib List

/-! ## Base64 -/

def base64Char (c : UInt8) : Bool :=
  (65 ≤ c ∧ c ≤ 90) ∨ (97 ≤ c ∧ c ≤ 122) ∨ (48 ≤ c ∧ c ≤ 57) ∨ c = 43 ∨ c = 47

/-- The bytes that a base64 text stands for: six bits a character, and none for the padding. -/
def decodedSize (text : Text) : Nat := text.countP base64Char * 6 / 8

/-- What is assumed of OpenSSL: `BIO_read(b, out, n)` on this text writes no more than it was asked
    for, and no more than the text stands for. -/
def BioReadBound (bioRead : Text → Nat → List UInt8) : Prop :=
  ∀ text n, (bioRead text n).length ≤ min n (decodedSize text)

/-! ## `tsa_auth_verify_request` -/

def bearerToken (auth : Text) : Option Text :=
  if 7 < auth.length ∧ (auth.take 7).map toLower = ascii "bearer " then some (auth.drop 7) else none

def secondDot (token : Text) : Option Nat :=
  let s := token.takeWhile (· ≠ 0)
  match s.idxOf? 46 with
  | some dot1 => ((s.drop (dot1 + 1)).idxOf? 46).map (dot1 + 1 + ·)
  | none => none

def toInt (n : Int) : Int := n.bmod (2 ^ 32)

/-- The byte at `token + i`, where `around` is what stands beside the copy of the token. -/
def tokenByte (token : Text) (around : Int → UInt8) (i : Int) : UInt8 :=
  if 0 ≤ i ∧ i ≤ token.length then token.getD i.toNat 0 else around i

/-- What `b64url_decode` is handed, given the second dot: `sig_b64_len` characters. -/
def signatureText (around : Int → UInt8) (token : Text) (dot2 : Nat) : Text :=
  let sigStart := toInt (toInt dot2 + 1)
  let sigB64Len := toInt (toInt token.length - sigStart)
  (range sigB64Len.toNat).map fun i => tokenByte token around (sigStart + i)

/-- `-` and `_` of the URL alphabet. -/
def standardChar (c : UInt8) : UInt8 := if c = 45 then 43 else if c = 95 then 47 else c

/-- `temp` of `b64url_decode`. -/
def paddedText (input : Text) : Text :=
  input.map standardChar ++ replicate ((4 - input.length % 4) % 4) 61

/-- `b64url_decode`: the bytes it writes from `out` on. -/
def b64urlDecode (bioRead : Text → Nat → List UInt8) (input : Text) : List UInt8 :=
  bioRead (paddedText input) (paddedText input).length

/-- The signature of a request, if the function gets to decode one. -/
def signatureOf (enabled : Bool) (around : Int → UInt8) (auth : Option Text) : Option Text :=
  if !enabled then none
  else match auth.bind bearerToken with
    | some token => (secondDot token).map (signatureText around token)
    | none => none

/-- The bytes written from `sig` on, before anything is compared. -/
def sigWrites (bioRead : Text → Nat → List UInt8) (enabled : Bool) (around : Int → UInt8)
    (auth : Option Text) : List UInt8 :=
  match signatureOf enabled around auth with
  | some text => b64urlDecode bioRead text
  | none => []

def sigSize : Nat := 64

/-- `tsa_auth_verify_request`, with HMAC-SHA256 under the server's secret as a parameter; `none`
    where the signature does not fit its buffer. -/
def tsaAuthVerifyRequest (bioRead : Text → Nat → List UInt8) (enabled : Bool)
    (hmac : Text → List UInt8) (around : Int → UInt8) (auth : Option Text) : Option Bool :=
  if sigSize < (sigWrites bioRead enabled around auth).length then none
  else if !enabled then some true
  else match auth.bind bearerToken with
    | some token =>
      match secondDot token with
      | some dot2 => some (sigWrites bioRead enabled around auth = hmac (token.take dot2))
      | none => some false
    | none => some false

/-! ## How much is written -/

theorem decodedSize_padded (input : Text) :
    decodedSize (paddedText input) = (input.map standardChar).countP base64Char * 6 / 8 := by
  have hpad : ∀ k, (replicate k (61 : UInt8)).countP base64Char = 0 := fun k => by
    rw [countP_replicate]
    rfl
  rw [decodedSize, paddedText, countP_append, hpad, Nat.add_zero]

theorem decodedSize_le (text : Text) : decodedSize text ≤ text.length := by
  have hle : text.countP base64Char ≤ text.length := countP_le_length
  rw [decodedSize]
  omega

/-- **The signature buffer**: whatever `BIO_read` does within its bound, no more than 64 bytes are
    written iff the request does not get to its signature, or the signature has no more than 86
    base64 characters. -/
theorem sigWrites_le_iff (enabled : Bool) (around : Int → UInt8) (auth : Option Text) :
    (∀ bioRead, BioReadBound bioRead → (sigWrites bioRead enabled around auth).length ≤ sigSize) ↔
      ∀ text, signatureOf enabled around auth = some text →
        (text.map standardChar).countP base64Char ≤ 86 := by
  constructor
  · -- a `BIO_read` that writes as much as it may
    rintro h text htext
    have hwrites := h (fun text n => replicate (min n (decodedSize text)) 0)
      fun text n => by rw [length_replicate]
    have hle := decodedSize_le (paddedText text)
    rw [sigWrites, htext] at hwrites
    simp only [b64urlDecode, length_replicate, sigSize] at hwrites
    rw [Nat.min_eq_right hle, decodedSize_padded] at hwrites
    omega
  · intro h bioRead hbio
    rw [sigWrites]
    cases htext : signatureOf enabled around auth with
    | none => exact Nat.zero_le _
    | some text =>
      have hwrites := hbio (paddedText text) (paddedText text).length
      have hchars := h text htext
      rw [decodedSize_padded] at hwrites
      show (b64urlDecode bioRead text).length ≤ 64
      rw [b64urlDecode]
      omega

/-- **88 characters are 66 bytes**, for anybody who sends them. -/
theorem long_signature_overflows : ∃ bioRead, BioReadBound bioRead ∧
    (sigWrites bioRead true (fun _ => 0)
      (some (ascii "Bearer a.b." ++ replicate 88 65))).length = 66 := by
  refine ⟨fun text n => replicate (min n (decodedSize text)) 0, ?_, by decide +kernel⟩
  exact fun text n => by rw [length_replicate]

end TsAnalyzer.Auth
