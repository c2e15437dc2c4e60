/-
# Amend.Digest.Text: bytes in writing

Two ways to write bytes: with two hexadecimal digits for each, and in groups of six bits with the
sixty-four characters that a URL leaves alone. Six bits are written first to last, and a last group
that is not full has zeros at its end; reading demands these zeros and admits no filling character.
-/
import Amend.Digest.Sha256

namespace Amend

/-- Bytes as hexadecimal digits. -/
def Bytes.hex (bs : Bytes) : String :=
  .ofList (bs.flatMap fun b => [Nat.digitChar (b.toNat / 16), Nat.digitChar (b.toNat % 16)])

/-- A byte is known by its two digits. -/
theorem Bytes.digits_injective {a b : UInt8}
    (hhigh : Nat.digitChar (a.toNat / 16) = Nat.digitChar (b.toNat / 16))
    (hlow : Nat.digitChar (a.toNat % 16) = Nat.digitChar (b.toNat % 16)) : a = b := by
  have hdigit : ∀ m < 16, ∀ n < 16, Nat.digitChar m = Nat.digitChar n → m = n := by decide
  have ha := a.toNat_lt
  have hb := b.toNat_lt
  have hhigh := hdigit _ (by omega) _ (by omega) hhigh
  have hlow := hdigit _ (by omega) _ (by omega) hlow
  exact UInt8.toNat_inj.mp (by omega)

/-- Bytes are known by their digits. -/
theorem Bytes.hex_injective {xs ys : Bytes} (h : xs.hex = ys.hex) : xs = ys := by
  unfold hex at h
  rw [String.ofList_inj] at h
  induction xs generalizing ys with
  | nil =>
    cases ys with
    | nil => rfl
    | cons y ys => cases h
  | cons x xs ih =>
    cases ys with
    | nil => cases h
    | cons y ys =>
      simp only [List.flatMap_cons, List.cons_append, List.nil_append, List.cons.injEq] at h
      obtain ⟨hhigh, hlow, hrest⟩ := h
      rw [digits_injective hhigh hlow, ih hrest]

/-- The digest of a text in hexadecimal digits. -/
def Sha256.ofText (s : String) : String := (digest (.ofString s)).hex

namespace Base64

/-- The sixty-four characters, by the number that each stands for. -/
def alphabet : List Char :=
  "ABCDEFGHIJKLMNOPQRSTUVWXYZabcdefghijklmnopqrstuvwxyz0123456789-_".toList

/-- The character for six bits. -/
def digit (n : Nat) : Char := alphabet.getD (n % 64) 'A'

/-- Bytes in writing. -/
def encode : Bytes → List Char
  | [] => []
  | [a] => [digit (a.toNat / 4), digit (a.toNat * 16)]
  | [a, b] => [digit (a.toNat / 4), digit (a.toNat * 16 + b.toNat / 16), digit (b.toNat * 4)]
  | a :: b :: c :: rest =>
    digit (a.toNat / 4) :: digit (a.toNat * 16 + b.toNat / 16) ::
      digit (b.toNat * 4 + c.toNat / 64) :: digit c.toNat :: encode rest

/-- The six bits that a character stands for. -/
def value? (c : Char) : Option Nat := alphabet.findIdx? (· == c)

/-- The bytes that a text writes. -/
def decode? : List Char → Option Bytes
  | [] => some []
  | [_] => none
  | [w, x] => do
    let (m, n) := (← value? w, ← value? x)
    if n % 16 = 0 then some [.ofNat (m * 4 + n / 16)] else none
  | [w, x, y] => do
    let (m, n, o) := (← value? w, ← value? x, ← value? y)
    if o % 4 = 0 then some [.ofNat (m * 4 + n / 16), .ofNat (n * 16 + o / 4)] else none
  | w :: x :: y :: z :: rest => do
    let (m, n, o, p) := (← value? w, ← value? x, ← value? y, ← value? z)
    let bs ← decode? rest
    return .ofNat (m * 4 + n / 16) :: .ofNat (n * 16 + o / 4) :: .ofNat (o * 64 + p) :: bs

/-- Bytes in writing, as a text. -/
def text (bs : Bytes) : String := .ofList (encode bs)

end Base64

end Amend
