import DeviceBus.Aes.Cipher
import DeviceBus.Bytes.Base64
import DeviceBus.DataError
import DeviceBus.Text.Utf8

/-! Payloads: plaintexts under a cipher, written in base64. A producer pads a plaintext with at least one
padding byte up to whole blocks; all padding bytes at the end are taken away again, so a plaintext must
not end with one. One key and one initialization vector serve a whole session. -/
namespace DeviceBus

structure CipherContext where
  size : Aes.KeySize
  keys : List Aes.Block
  iv : Aes.Block
deriving DecidableEq, Repr

inductive CipherSetupFlaw
  | keyLength (length : Nat)
  | ivLength (length : Nat)
deriving DecidableEq, Repr

def CipherSetupFlaw.message : CipherSetupFlaw → String
  | .keyLength length => s!"Key is {length} bytes long, expected 16, 24, or 32 bytes"
  | .ivLength length => s!"Initialization vector is {length} bytes long, expected 16 bytes"

def CipherSetupFlaw.error (flaw : CipherSetupFlaw) : DataError :=
  match flaw with
  | .keyLength _ => ⟨.invalidKey, flaw.message⟩
  | .ivLength _ => ⟨.invalidIv, flaw.message⟩

inductive PayloadFlaw
  | notBase64 (fault : Base64.Fault)
  | cipherLength (length : Nat)
  | notPadded
deriving DecidableEq, Repr

def PayloadFlaw.message : PayloadFlaw → String
  | .notBase64 fault => "Payload is not valid base64: " ++ fault.message
  | .cipherLength length =>
    s!"Ciphertext is {length} bytes long, expected a positive multiple of 16"
  | .notPadded => "Decrypted payload does not end with the padding byte"

def PayloadFlaw.error (flaw : PayloadFlaw) : DataError :=
  match flaw with
  | .notBase64 _ | .cipherLength _ => ⟨.encoding, flaw.message⟩
  | .notPadded => ⟨.decryption, flaw.message⟩

inductive PlaintextFlaw
  | endsWithPadding
deriving DecidableEq, Repr

def PlaintextFlaw.message : PlaintextFlaw → String
  | .endsWithPadding => "Plaintext ends with the padding byte"

def PlaintextFlaw.error (flaw : PlaintextFlaw) : DataError := ⟨.encoding, flaw.message⟩

/-- What can go wrong where the cipher is made ready for each payload: it may refuse the key or the data too. -/
inductive DecryptionFlaw
  | payload (flaw : PayloadFlaw)
  | keyRefused (algorithm : String)
  | dataRefused (algorithm : String)
deriving DecidableEq, Repr

inductive EncryptionFlaw
  | plaintext (flaw : PlaintextFlaw)
  | keyRefused (algorithm : String)
  | dataRefused (algorithm : String)
deriving DecidableEq, Repr

def keyRefusal (algorithm : String) : DataError := ⟨.invalidKey, algorithm ++ ": Invalid Length"⟩

def DecryptionFlaw.error : DecryptionFlaw → DataError
  | .payload flaw => flaw.error
  | .keyRefused algorithm => keyRefusal algorithm
  | .dataRefused algorithm => ⟨.decryption, algorithm ++ " rejected the ciphertext"⟩

def EncryptionFlaw.error : EncryptionFlaw → DataError
  | .plaintext flaw => flaw.error
  | .keyRefused algorithm => keyRefusal algorithm
  | .dataRefused algorithm => ⟨.encoding, algorithm ++ " rejected the plaintext"⟩

namespace CipherContext

def blockSize : Nat := 16

def padding : UInt8 := 0x7B

def ofBytes (key iv : Bytes) : Except CipherSetupFlaw CipherContext :=
  match Aes.KeySize.ofByteLength? key.length with
  | none => .error (.keyLength key.length)
  | some size =>
    if iv.length ≠ blockSize then .error (.ivLength iv.length)
    else .ok ⟨size, Aes.roundKeys size key, (Aes.Block.ofBytes iv).headD .zero⟩

def algorithm (context : CipherContext) : String :=
  match context.size with
  | .bits128 => "AES-128-CBC"
  | .bits192 => "AES-192-CBC"
  | .bits256 => "AES-256-CBC"

def description (context : CipherContext) : String :=
  let name := match context.size with
    | .bits128 => "Aes128Cbc"
    | .bits192 => "Aes192Cbc"
    | .bits256 => "Aes256Cbc"
  "CipherContext \x7b algorithm: " ++ name ++ ", .. \x7d"

def encryptBytes (context : CipherContext) (data : Bytes) : Bytes :=
  (Aes.encryptChain context.keys context.iv (Aes.Block.ofBytes data)).flatMap Aes.Block.toBytes

def decryptBytes (context : CipherContext) (data : Bytes) : Bytes :=
  (Aes.decryptChain context.keys context.iv (Aes.Block.ofBytes data)).flatMap Aes.Block.toBytes

def addPadding (plaintext : Bytes) : Bytes :=
  plaintext ++ List.replicate (blockSize - plaintext.length % blockSize) padding

def stripPadding (data : Bytes) : Bytes := (data.reverse.dropWhile (· == padding)).reverse

def decrypt (context : CipherContext) (payload : String) : Except PayloadFlaw Bytes := do
  let data ← (Base64.decode (Utf8.ofString payload)).mapError .notBase64
  if data.length = 0 ∨ data.length % blockSize ≠ 0 then .error (.cipherLength data.length)
  else
    let padded := context.decryptBytes data
    if padded.getLast? = some padding then .ok (stripPadding padded) else .error .notPadded

/-- Decrypts under the algorithm of a context with the bytes of a key and a vector, from which the cipher is made
ready anew; so does `encryptFrom` encrypt. -/
def decryptFrom (context : CipherContext) (key iv : Bytes) (payload : String) : Except DecryptionFlaw Bytes := do
  let data ← (Base64.decode (Utf8.ofString payload)).mapError fun fault => .payload (.notBase64 fault)
  if data.length = 0 ∨ data.length % blockSize ≠ 0 then .error (.payload (.cipherLength data.length))
  else
    match Aes.Chaining.ofBytes? context.size key iv with
    | none => .error (.keyRefused context.algorithm)
    | some chaining =>
      match chaining.decrypt? data with
      | none => .error (.dataRefused context.algorithm)
      | some padded =>
        if padded.getLast? = some padding then .ok (stripPadding padded) else .error (.payload .notPadded)

def payloadOf (data : Bytes) : String := String.ofList ((Base64.encode data).map fun b => Char.ofNat b.toNat)

def encrypt (context : CipherContext) (plaintext : Bytes) : Except PlaintextFlaw String :=
  if plaintext.getLast? = some padding then .error .endsWithPadding
  else .ok (payloadOf (context.encryptBytes (addPadding plaintext)))

def encryptFrom (context : CipherContext) (key iv plaintext : Bytes) : Except EncryptionFlaw String :=
  if plaintext.getLast? = some padding then .error (.plaintext .endsWithPadding)
  else
    match Aes.Chaining.ofBytes? context.size key iv with
    | none => .error (.keyRefused context.algorithm)
    | some chaining =>
      match chaining.encrypt? (addPadding plaintext) with
      | none => .error (.dataRefused context.algorithm)
      | some data => .ok (payloadOf data)

end CipherContext
end DeviceBus
