import Mathlib.Data.List.Basic
import Mathlib.Tactic.Ring

/-!
# Block ciphers and cipher block chaining

A keyed block cipher over an arbitrary alphabet with an exclusive or, the chaining mode over it and
the checksum that keeps only the last chaining value. A cipher carries what is assumed of it: its
two directions keep the block size and the second undoes the first.

The loops run over a number of blocks and cut the data as they go, so nothing is assumed of the
length of the data in the definitions. `cbcDecrypt_cbcEncrypt` is the inversion of the mode on data
of whole blocks; the induction is on the number of blocks, with the chaining value generalised.
-/

namespace OtaPlatform

open List

namespace Crypto

/-- A keyed block cipher on blocks of one size. -/
structure BlockCipher (α : Type*) where
  blockSize : ℕ
  blockSize_pos : 0 < blockSize
  encrypt : List α → List α
  decrypt : List α → List α
  length_encrypt : ∀ b, b.length = blockSize → (encrypt b).length = blockSize
  length_decrypt : ∀ b, b.length = blockSize → (decrypt b).length = blockSize
  decrypt_encrypt : ∀ b, b.length = blockSize → decrypt (encrypt b) = b

variable {α : Type*}

/-! ## Whole blocks -/

section Blocks

variable {c : BlockCipher α}

private theorem length_take_block {n : ℕ} {data : List α}
    (hdata : data.length = (n + 1) * c.blockSize) :
    (data.take c.blockSize).length = c.blockSize := by
  rw [length_take, hdata]
  exact min_eq_left (Nat.le_mul_of_pos_left _ (Nat.succ_pos n))

private theorem length_drop_block {n : ℕ} {data : List α}
    (hdata : data.length = (n + 1) * c.blockSize) :
    (data.drop c.blockSize).length = n * c.blockSize := by
  rw [length_drop, hdata, Nat.add_mul, Nat.one_mul, Nat.add_sub_cancel]

end Blocks

variable [XorOp α]

/-! ## Exclusive or -/

/-- The first list with the second one added in, position by position; what the second one does not
reach stays. -/
def xorBytes : List α → List α → List α
  | [], _ => []
  | d :: dst, [] => d :: dst
  | d :: dst, s :: src => (d ^^^ s) :: xorBytes dst src

@[simp] theorem length_xorBytes (dst src : List α) : (xorBytes dst src).length = dst.length := by
  induction dst generalizing src with
  | nil => rfl
  | cons d dst ih =>
    rcases src with _ | ⟨s, src⟩
    · rfl
    · rw [xorBytes, length_cons, length_cons, ih]

theorem xorBytes_xorBytes (hcancel : ∀ a b : α, a ^^^ b ^^^ b = a) (dst src : List α) :
    xorBytes (xorBytes dst src) src = dst := by
  induction dst generalizing src with
  | nil => rfl
  | cons d dst ih =>
    rcases src with _ | ⟨s, src⟩
    · rfl
    · rw [xorBytes, xorBytes, hcancel, ih]

/-! ## Chaining -/

variable (c : BlockCipher α)

/-- Encrypts `n` blocks, each added to the chaining value first. -/
def encryptBlocks : ℕ → List α → List α → List α
  | 0, _, _ => []
  | n + 1, iv, data =>
    let out := c.encrypt (xorBytes (data.take c.blockSize) iv)
    out ++ encryptBlocks n out (data.drop c.blockSize)

/-- Decrypts `n` blocks, each added to the chaining value afterwards. -/
def decryptBlocks : ℕ → List α → List α → List α
  | 0, _, _ => []
  | n + 1, iv, data =>
    let src := data.take c.blockSize
    xorBytes (c.decrypt src) iv ++ decryptBlocks n src (data.drop c.blockSize)

/-- The chaining value after `n` blocks. -/
def chainBlocks : ℕ → List α → List α → List α
  | 0, mac, _ => mac
  | n + 1, mac, data =>
    chainBlocks n (c.encrypt (xorBytes mac (data.take c.blockSize))) (data.drop c.blockSize)

def cbcEncrypt (iv data : List α) : List α := encryptBlocks c (data.length / c.blockSize) iv data

def cbcDecrypt (iv data : List α) : List α := decryptBlocks c (data.length / c.blockSize) iv data

/-- The last chaining value over the whole blocks of the data. -/
def cbcMac (iv data : List α) : List α := chainBlocks c (data.length / c.blockSize) iv data

variable {c}

private theorem length_encrypt_block {n : ℕ} (iv : List α) {data : List α}
    (hdata : data.length = (n + 1) * c.blockSize) :
    (c.encrypt (xorBytes (data.take c.blockSize) iv)).length = c.blockSize :=
  c.length_encrypt _ ((length_xorBytes _ _).trans (length_take_block hdata))

theorem length_encryptBlocks {n : ℕ} {iv data : List α} (hdata : data.length = n * c.blockSize) :
    (encryptBlocks c n iv data).length = n * c.blockSize := by
  induction n generalizing iv data with
  | zero => rw [encryptBlocks, length_nil, Nat.zero_mul]
  | succ n ih =>
    rw [encryptBlocks, length_append, length_encrypt_block iv hdata, ih (length_drop_block hdata)]
    ring

theorem decryptBlocks_encryptBlocks (hcancel : ∀ a b : α, a ^^^ b ^^^ b = a) {n : ℕ}
    {iv data : List α} (hdata : data.length = n * c.blockSize) :
    decryptBlocks c n iv (encryptBlocks c n iv data) = data := by
  induction n generalizing iv data with
  | zero =>
    rw [Nat.zero_mul] at hdata
    rw [encryptBlocks, decryptBlocks, length_eq_zero_iff.mp hdata]
  | succ n ih =>
    have hblock : (xorBytes (data.take c.blockSize) iv).length = c.blockSize :=
      (length_xorBytes _ _).trans (length_take_block hdata)
    -- The first block of the output is the next chaining value on both sides.
    have hout := length_encrypt_block iv hdata
    rw [encryptBlocks, decryptBlocks, take_left' hout, drop_left' hout,
      c.decrypt_encrypt _ hblock, xorBytes_xorBytes hcancel, ih (length_drop_block hdata),
      take_append_drop]

theorem length_chainBlocks {n : ℕ} {mac data : List α} (hmac : mac.length = c.blockSize) :
    (chainBlocks c n mac data).length = c.blockSize := by
  induction n generalizing mac data with
  | zero => exact hmac
  | succ n ih => exact ih (c.length_encrypt _ ((length_xorBytes _ _).trans hmac))

theorem length_cbcMac {iv data : List α} (hiv : iv.length = c.blockSize) :
    (cbcMac c iv data).length = c.blockSize := length_chainBlocks hiv

theorem length_cbcEncrypt {iv data : List α} (hdata : data.length % c.blockSize = 0) :
    (cbcEncrypt c iv data).length = data.length := by
  have hwhole : data.length = data.length / c.blockSize * c.blockSize :=
    (Nat.div_mul_cancel (Nat.dvd_of_mod_eq_zero hdata)).symm
  rw [cbcEncrypt, length_encryptBlocks hwhole, ← hwhole]

/-- **Chaining inverts.** On data of whole blocks, decryption undoes encryption. -/
theorem cbcDecrypt_cbcEncrypt (hcancel : ∀ a b : α, a ^^^ b ^^^ b = a) {iv data : List α}
    (hdata : data.length % c.blockSize = 0) : cbcDecrypt c iv (cbcEncrypt c iv data) = data := by
  have hwhole : data.length = data.length / c.blockSize * c.blockSize :=
    (Nat.div_mul_cancel (Nat.dvd_of_mod_eq_zero hdata)).symm
  rw [cbcDecrypt, length_cbcEncrypt hdata, cbcEncrypt]
  exact decryptBlocks_encryptBlocks hcancel hwhole

end Crypto

end OtaPlatform
