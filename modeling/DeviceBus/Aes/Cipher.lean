import DeviceBus.Aes.Block

/-! The block cipher and its chained mode. Encryption adds the keys of the rounds one after another;
decryption undoes the rounds in reverse, whatever the keys are. In the chained mode each block is
added to the cipher block before it, the first one to the initialization vector. Made ready for one byte string, it
refuses a key of another size, a vector that is not a block and bytes that do not make up blocks. -/
namespace DeviceBus.Aes

inductive KeySize
  | bits128
  | bits192
  | bits256
deriving DecidableEq, Repr

namespace KeySize

def ofByteLength? : Nat → Option KeySize
  | 16 => some bits128
  | 24 => some bits192
  | 32 => some bits256
  | _ => none

def columns : KeySize → Nat
  | bits128 => 4
  | bits192 => 6
  | bits256 => 8

def rounds (size : KeySize) : Nat := size.columns + 6

end KeySize

/-- The column after those given, newest first, of which there are `n`. The first column of every stretch as
long as the key is substituted, rotated and told apart; long keys substitute the fifth one as well. -/
def nextColumn (size : KeySize) (n : Nat) (newest : List Column) : Column :=
  let last := newest.headD .zero
  let added :=
    if n % size.columns = 0 then
      (last.rotate.map substitute).add ⟨roundConstant (n / size.columns - 1), 0, 0, 0⟩
    else if size = .bits256 ∧ n % size.columns = 4 then last.map substitute
    else last
  (newest.getD (size.columns - 1) .zero).add added

def extend (size : KeySize) : Nat → List Column → List Column
  | 0, newest => newest
  | count + 1, newest => extend size count (nextColumn size newest.length newest :: newest)

def roundKeys (size : KeySize) (key : Bytes) : List Block :=
  let total := 4 * (size.rounds + 1)
  Block.ofColumns (extend size (total - size.columns) (Column.ofBytes key).reverse).reverse

def rounds : List Block → Block → Block
  | [], s => s
  | [key], s => s.substitute.shift.add key
  | key :: next :: more, s => rounds (next :: more) (s.substitute.shift.mix.add key)

def unrounds : List Block → Block → Block
  | [], s => s
  | [key], s => (s.add key).unshift.unsubstitute
  | key :: next :: more, s => ((unrounds (next :: more) s).add key).unmix.unshift.unsubstitute

def encryptBlock : List Block → Block → Block
  | [], s => s
  | key :: more, s => rounds more (s.add key)

def decryptBlock : List Block → Block → Block
  | [], s => s
  | key :: more, s => (unrounds more s).add key

def encryptChain (keys : List Block) (previous : Block) : List Block → List Block
  | [] => []
  | s :: rest =>
    let c := encryptBlock keys (s.add previous)
    c :: encryptChain keys c rest

def decryptChain (keys : List Block) (previous : Block) : List Block → List Block
  | [] => []
  | c :: rest => (decryptBlock keys c).add previous :: decryptChain keys c rest

structure Chaining where
  keys : List Block
  iv : Block
deriving DecidableEq, Repr

namespace Chaining

def ofBytes? (size : KeySize) (key iv : Bytes) : Option Chaining :=
  if key.length = 4 * size.columns ∧ iv.length = 16 then
    some ⟨roundKeys size key, (Block.ofBytes iv).headD .zero⟩
  else none

def encrypt? (chaining : Chaining) (data : Bytes) : Option Bytes :=
  if data.length % 16 = 0 then
    some ((encryptChain chaining.keys chaining.iv (Block.ofBytes data)).flatMap Block.toBytes)
  else none

def decrypt? (chaining : Chaining) (data : Bytes) : Option Bytes :=
  if data.length % 16 = 0 then
    some ((decryptChain chaining.keys chaining.iv (Block.ofBytes data)).flatMap Block.toBytes)
  else none

end Chaining
end DeviceBus.Aes
