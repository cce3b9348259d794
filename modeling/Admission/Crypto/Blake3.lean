-- BLAKE3 in its plain hashing mode with a digest of 32 bytes. The input is cut
-- into chunks of 1024 bytes, which are the leaves of a binary tree whose left
-- subtrees are full; every node is one run of the compression function.
import Admission.ByteString

namespace Admission.Blake3

/-! ## The compression function -/

abbrev State := Vector UInt32 16

/-- The chaining value that every chunk starts from. -/
def initialValue : Vector UInt32 8 :=
  #v[0x6A09E667, 0xBB67AE85, 0x3C6EF372, 0xA54FF53A, 0x510E527F, 0x9B05688C, 0x1F83D9AB, 0x5BE0CD19]

/-- Where each word of the next round's message comes from. -/
def permutation : Vector (Fin 16) 16 := #v[2, 6, 3, 10, 7, 0, 4, 13, 1, 11, 12, 5, 9, 14, 15, 8]

def rotateRight (x n : UInt32) : UInt32 := (x >>> n) ||| (x <<< (32 - n))

/-- Mixes two message words into four words of the state. -/
def mix (s : State) (a b c d : Fin 16) (x y : UInt32) : State :=
  let va := s[a] + s[b] + x
  let vd := rotateRight (s[d] ^^^ va) 16
  let vc := s[c] + vd
  let vb := rotateRight (s[b] ^^^ vc) 12
  let va := va + vb + y
  let vd := rotateRight (vd ^^^ va) 8
  let vc := vc + vd
  let vb := rotateRight (vb ^^^ vc) 7
  (((s.set a va).set b vb).set c vc).set d vd

/-- Mixes the columns, then the diagonals. -/
def round (s m : State) : State :=
  let s := mix s 0 4 8 12 m[0] m[1]
  let s := mix s 1 5 9 13 m[2] m[3]
  let s := mix s 2 6 10 14 m[4] m[5]
  let s := mix s 3 7 11 15 m[6] m[7]
  let s := mix s 0 5 10 15 m[8] m[9]
  let s := mix s 1 6 11 12 m[10] m[11]
  let s := mix s 2 7 8 13 m[12] m[13]
  mix s 3 4 9 14 m[14] m[15]

/-- So many rounds, the message being permuted between two of them. -/
def rounds : Nat → State → State → State
  | 0, s, _ => s
  | n + 1, s, m => rounds n (round s m) (permutation.map (m[·]))

/-! ## Nodes of the tree -/

/-- A node before its last run of the compression function. Only the root is told that it is
the root, so the run waits until its place is known. -/
structure Node where
  chaining : Vector UInt32 8
  message : State
  counter : UInt64
  length : UInt32
  flags : UInt32

def chunkStart : UInt32 := 1
def chunkEnd : UInt32 := 2
def parentFlag : UInt32 := 4
def rootFlag : UInt32 := 8

/-- The eight words that a node hands on, with more flags set. -/
def Node.output (node : Node) (extra : UInt32) : Vector UInt32 8 :=
  let chain := node.chaining
  let start : State :=
    #v[chain[0], chain[1], chain[2], chain[3], chain[4], chain[5], chain[6], chain[7],
      initialValue[0], initialValue[1], initialValue[2], initialValue[3],
      node.counter.toUInt32, (node.counter >>> 32).toUInt32, node.length, node.flags ||| extra]
  let s := rounds 7 start node.message
  Vector.ofFn fun i : Fin 8 => s[i.val] ^^^ s[i.val + 8]

/-- A block of at most 64 bytes as words, filled up with zeros. -/
def blockWords (block : List UInt8) : State :=
  let bytes := block.toArray
  Vector.ofFn fun i : Fin 16 =>
    UInt32.ofNat (ofLittleEndian ((List.range 4).map fun j => bytes[4 * i.val + j]?.getD 0))

/-- The node of a chunk: its blocks in a row, the first and the last one marked. -/
def chunkNode (counter : UInt64) (chaining : Vector UInt32 8) (flags : UInt32) (bytes : List UInt8) :
    Node :=
  let block := bytes.take 64
  let node : Node := ⟨chaining, blockWords block, counter, UInt32.ofNat block.length, flags⟩
  if 64 < bytes.length then
    chunkNode counter (node.output 0) 0 (bytes.drop 64)
  else
    { node with flags := flags ||| chunkEnd }
termination_by bytes.length
decreasing_by simp; omega

/-- How many bytes of a longer input go to the left: the most chunks that are a power of two
and leave something to the right. -/
def leftLength (n : Nat) : Nat := 1024 <<< ((n - 1) / 1024).log2

theorem leftLength_lt {n : Nat} (h : 1024 < n) : leftLength n < n := by
  have := Nat.log2_self_le (n := (n - 1) / 1024) (by omega)
  rw [leftLength, Nat.shiftLeft_eq]
  omega

theorem leftLength_pos (n : Nat) : 0 < leftLength n :=
  Nat.lt_of_lt_of_le (by decide) (Nat.le_shiftLeft (a := 1024))

/-- The top node over some bytes, the first of their chunks having this number. -/
def treeNode (firstChunk : Nat) (bytes : List UInt8) : Node :=
  if 1024 < bytes.length then
    let cut := leftLength bytes.length
    let left := (treeNode firstChunk (bytes.take cut)).output 0
    let right := (treeNode (firstChunk + cut / 1024) (bytes.drop cut)).output 0
    ⟨initialValue, (left ++ right : Vector UInt32 (8 + 8)), 0, 64, parentFlag⟩
  else
    chunkNode (UInt64.ofNat firstChunk) initialValue chunkStart bytes
termination_by bytes.length
decreasing_by
  · simp only [List.length_take]
    have := leftLength_lt (n := bytes.length) (by omega)
    omega
  · simp only [List.length_drop]
    have := leftLength_pos bytes.length
    omega

def hash (bytes : List UInt8) : Hash :=
  .ofListFilled 32
    (((treeNode 0 bytes).output rootFlag).toList.flatMap fun w => littleEndian 4 w.toNat)

end Admission.Blake3
