import AurixVoice.Types

namespace AurixVoice

namespace E2ee

abbrev Bytes := List UInt8
abbrev PublicKey := Vector UInt8 32
abbrev Secret := Vector UInt8 32

structure Crypto where
  hmac : Bytes → Bytes → Vector UInt8 32
  sha256 : Bytes → Vector UInt8 32
  keystream : Vector UInt8 32 → Vector UInt8 16 → ℕ → UInt8
  publicKey : Secret → PublicKey
  diffieHellman : Secret → PublicKey → Vector UInt8 32

def pad32 (bytes : Bytes) : Vector UInt8 32 := Vector.ofFn fun i => bytes.getD i 0

def Crypto.masks : Crypto where
  hmac key text := Vector.zipWith (· ^^^ ·) (pad32 key) (pad32 text)
  sha256 := pad32
  keystream _ _ _ := 0
  publicKey secret := secret
  diffieHellman := Vector.zipWith (· &&& ·)

def frameHeaderLen : ℕ := 5
def frameTagLen : ℕ := 10
def frameOverhead : ℕ := frameHeaderLen + frameTagLen
def secretLen : ℕ := 32
def wrapNonceLen : ℕ := 12
def wrapTagLen : ℕ := 16
def wrappedKeyLen : ℕ := wrapNonceLen + secretLen + wrapTagLen
def keptGenerations : ℕ := 4
def rotateAtCounter : UInt32 := 0x80000000
def replayWindow : ℕ := 128

def infoBytes (info : String) : Bytes := info.toList.map fun c => c.toNat.toUInt8

def infoEnc : Bytes := infoBytes "aurix-e2ee-v1 enc"
def infoAuth : Bytes := infoBytes "aurix-e2ee-v1 auth"
def infoSalt : Bytes := infoBytes "aurix-e2ee-v1 salt"
def infoWrapEnc : Bytes := infoBytes "aurix-e2ee-v1 wrap enc"
def infoWrapAuth : Bytes := infoBytes "aurix-e2ee-v1 wrap auth"

variable (crypto : Crypto)

def hkdfBlocks (prk info : Bytes) : ℕ → UInt8 → Bytes → Bytes
  | 0, _, _ => []
  | n + 1, i, prev =>
    let block := (crypto.hmac prk (prev ++ info ++ [i])).toList
    block ++ hkdfBlocks prk info n (i + 1) block

lemma hkdfBlocks_length (prk info : Bytes) (n : ℕ) (i : UInt8) (prev : Bytes) :
    (hkdfBlocks crypto prk info n i prev).length = 32 * n := by
  induction n generalizing i prev with
  | zero => rfl
  | succ n ih => simp only [hkdfBlocks, List.length_append, Vector.length_toList, ih]; omega

def hkdfSha256 (salt ikm info : Bytes) (len : ℕ) : Vector UInt8 len :=
  ⟨((hkdfBlocks crypto (crypto.hmac salt ikm).toList info ((len + 31) / 32) 1 []).take len).toArray, by
    simp only [List.size_toArray, List.length_take, hkdfBlocks_length]; omega⟩

def aes256Ctr (key : Vector UInt8 32) (iv : Vector UInt8 16) (data : Bytes) : Bytes :=
  data.mapIdx fun i b => b ^^^ crypto.keystream key iv i

@[simp] lemma aes256Ctr_length (key : Vector UInt8 32) (iv : Vector UInt8 16) (data : Bytes) :
    (aes256Ctr crypto key iv data).length = data.length := by
  simp [aes256Ctr]

@[simp] lemma aes256Ctr_involutive (key : Vector UInt8 32) (iv : Vector UInt8 16) (data : Bytes) :
    aes256Ctr crypto key iv (aes256Ctr crypto key iv data) = data := by
  apply List.ext_getElem
  · simp
  · intro i _ _
    simp only [aes256Ctr, List.getElem_mapIdx, UInt8.xor_assoc, UInt8.xor_self, UInt8.xor_zero]

def hexDigit (n : ℕ) : Char := "0123456789abcdef".toList.getD n '0'

def fingerprint (key : PublicKey) : String :=
  String.ofList ((crypto.sha256 key.toList).toList.flatMap fun b =>
    [hexDigit (b.toNat / 16), hexDigit (b.toNat % 16)])

def beBytes (n : UInt32) : Bytes :=
  [(n.toNat / 2 ^ 24).toUInt8, (n.toNat / 2 ^ 16).toUInt8, (n.toNat / 2 ^ 8).toUInt8, n.toNat.toUInt8]

def fromBeBytes (a b c d : UInt8) : UInt32 :=
  UInt32.ofNat (a.toNat * 2 ^ 24 + b.toNat * 2 ^ 16 + c.toNat * 2 ^ 8 + d.toNat)

lemma fromBeBytes_beBytes (n : UInt32) :
    fromBeBytes (n.toNat / 2 ^ 24).toUInt8 (n.toNat / 2 ^ 16).toUInt8
      (n.toNat / 2 ^ 8).toUInt8 n.toNat.toUInt8 = n := by
  apply UInt32.toNat_inj.mp
  have hn := n.toNat_lt
  simp only [fromBeBytes, Nat.toUInt8_eq, UInt8.toNat_ofNat', UInt32.toNat_ofNat']
  omega

lemma beBytes_fromBeBytes (a b c d : UInt8) : beBytes (fromBeBytes a b c d) = [a, b, c, d] := by
  have ha := a.toNat_lt
  have hb := b.toNat_lt
  have hc := c.toNat_lt
  have hd := d.toNat_lt
  simp only [beBytes, fromBeBytes, UInt32.toNat_ofNat', List.cons.injEq, and_true]
  refine ⟨?_, ?_, ?_, ?_⟩ <;> apply UInt8.toNat_inj.mp <;> simp only [Nat.toUInt8_eq, UInt8.toNat_ofNat'] <;> omega

end E2ee

end AurixVoice
