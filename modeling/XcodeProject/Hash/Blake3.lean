/-!
# The BLAKE3 hash

The unkeyed hash of a list of bytes.  The input is cut into chunks of 1024 bytes and a chunk into
blocks of 64 bytes.  The blocks of a chunk are compressed one after the other into the chunk's
chaining value; the chaining values are the leaves of a binary tree, in which every left subtree is
complete, and the node at the root gives the digest.

The state of the compression function is four rows of four words.  A round mixes the four columns,
rotates the rows so that the diagonals become columns, mixes again, and rotates back.
-/

namespace XcodeProject.Blake3

/-! ## Words -/

/-- Four words side by side. -/
structure Row where
  /-- The first word. -/
  w0 : UInt32
  /-- The second word. -/
  w1 : UInt32
  /-- The third word. -/
  w2 : UInt32
  /-- The fourth word. -/
  w3 : UInt32
deriving DecidableEq, Repr

namespace Row

/-- The row of the results of `f`, word by word. -/
def map₂ (f : UInt32 → UInt32 → UInt32) (x y : Row) : Row :=
  ⟨f x.w0 y.w0, f x.w1 y.w1, f x.w2 y.w2, f x.w3 y.w3⟩

/-- Word by word, the sum modulo 2³². -/
def add (x y : Row) : Row := map₂ (· + ·) x y

/-- Word by word, the bits in which the two differ. -/
def xor (x y : Row) : Row := map₂ (· ^^^ ·) x y

/-- Word by word, the bits moved right by `n` places, those that fall off coming in on the left. -/
def rotateBits (n : UInt32) (x : Row) : Row :=
  let rotate (w : UInt32) := (w >>> n) ||| (w <<< (32 - n))
  ⟨rotate x.w0, rotate x.w1, rotate x.w2, rotate x.w3⟩

/-- The words moved left by one place. -/
def rotate1 (x : Row) : Row := ⟨x.w1, x.w2, x.w3, x.w0⟩

/-- The words moved left by two places. -/
def rotate2 (x : Row) : Row := ⟨x.w2, x.w3, x.w0, x.w1⟩

/-- The words moved left by three places. -/
def rotate3 (x : Row) : Row := ⟨x.w3, x.w0, x.w1, x.w2⟩

/-- The words in order. -/
def toList (x : Row) : List UInt32 := [x.w0, x.w1, x.w2, x.w3]

end Row

/-- Eight words that stand for everything hashed so far below a node. -/
structure ChainingValue where
  /-- The first four words. -/
  low : Row
  /-- The last four words. -/
  high : Row
deriving DecidableEq, Repr

/-- The chaining value that every chunk begins with. -/
def ChainingValue.initial : ChainingValue where
  low := ⟨0x6a09e667, 0xbb67ae85, 0x3c6ef372, 0xa54ff53a⟩
  high := ⟨0x510e527f, 0x9b05688c, 0x1f83d9ab, 0x5be0cd19⟩

/-- The sixteen words of a block. -/
abbrev Block := Vector UInt32 16

/-- The order in which the next round takes the words of a block. -/
def Block.permute (m : Block) : Block :=
  #v[m[2], m[6], m[3], m[10], m[7], m[0], m[4], m[13],
    m[1], m[11], m[12], m[5], m[9], m[14], m[15], m[8]]

/-- The word of four bytes, the lowest byte first; missing bytes are zero. -/
def wordOfBytes (bytes : List UInt8) : UInt32 :=
  (bytes.take 4).foldr (fun byte word => (word <<< 8) ||| byte.toUInt32) 0

/-- The bytes of a word, the lowest first. -/
def bytesOfWord (word : UInt32) : List UInt8 :=
  [word.toUInt8, (word >>> 8).toUInt8, (word >>> 16).toUInt8, (word >>> 24).toUInt8]

/-- The words of a block of at most 64 bytes; missing bytes are zero. -/
def Block.ofBytes (bytes : List UInt8) : Block :=
  Vector.ofFn fun i => wordOfBytes (bytes.drop (4 * i.val))

/-! ## Compression -/

/-- The state of the compression function. -/
structure State where
  /-- The first row. -/
  a : Row
  /-- The second row. -/
  b : Row
  /-- The third row. -/
  c : Row
  /-- The fourth row. -/
  d : Row
deriving DecidableEq, Repr

namespace State

/-- Mixes each column with a word of `x` and a word of `y`. -/
def mixColumns (s : State) (x y : Row) : State :=
  let a := (s.a.add s.b).add x
  let d := (s.d.xor a).rotateBits 16
  let c := s.c.add d
  let b := (s.b.xor c).rotateBits 12
  let a := (a.add b).add y
  let d := (d.xor a).rotateBits 8
  let c := c.add d
  let b := (b.xor c).rotateBits 7
  ⟨a, b, c, d⟩

/-- Moves the diagonals into the columns. -/
def diagonals (s : State) : State :=
  ⟨s.a, s.b.rotate1, s.c.rotate2, s.d.rotate3⟩

/-- Moves the columns back to the diagonals. -/
def undoDiagonals (s : State) : State :=
  ⟨s.a, s.b.rotate3, s.c.rotate2, s.d.rotate1⟩

/-- One round: columns, then diagonals. -/
def round (s : State) (m : Block) : State :=
  let s := s.mixColumns ⟨m[0], m[2], m[4], m[6]⟩ ⟨m[1], m[3], m[5], m[7]⟩
  let s := s.diagonals.mixColumns ⟨m[8], m[10], m[12], m[14]⟩ ⟨m[9], m[11], m[13], m[15]⟩
  s.undoDiagonals

/-- So many rounds, each with the words of the block in the next order. -/
def rounds : Nat → State → Block → State
  | 0, s, _ => s
  | n + 1, s, m => rounds n (s.round m) m.permute

end State

/-- A block begins a chunk. -/
def flagChunkStart : UInt32 := 1

/-- A block ends a chunk. -/
def flagChunkEnd : UInt32 := 2

/-- A block holds the chaining values of two nodes. -/
def flagParent : UInt32 := 4

/-- A block is the last one of the root. -/
def flagRoot : UInt32 := 8

/-- The last block of a node, not yet compressed: only then is it known whether it is the root. -/
structure Node where
  /-- The chaining value before the block. -/
  chaining : ChainingValue
  /-- The block. -/
  block : Block
  /-- The number of the chunk; zero in a parent. -/
  counter : Nat
  /-- How many bytes of the block are input. -/
  length : Nat
  /-- What the block is. -/
  flags : UInt32

/-- The chaining value after the last block of a node, compressed with `extra` flags. -/
def Node.compress (node : Node) (extra : UInt32) : ChainingValue :=
  let start : State :=
    { a := node.chaining.low
      b := node.chaining.high
      c := ChainingValue.initial.low
      d := ⟨node.counter.toUInt32, (node.counter / UInt32.size).toUInt32, node.length.toUInt32,
        node.flags ||| extra⟩ }
  let last := start.rounds 7 node.block
  ⟨last.a.xor last.c, last.b.xor last.d⟩

/-- The chaining value of a node below the root. -/
def Node.chainingValue (node : Node) : ChainingValue :=
  node.compress 0

/-! ## The tree -/

/-- Cuts a list into pieces of `size` elements, the last one perhaps shorter; `room` more elements go
into the piece whose elements so far, last first, are `piece`.  The list of one empty piece stands
for an empty list. -/
def pieces {α : Type} (size : Nat) : Nat → List α → List α → List (List α)
  | _, piece, [] => [piece.reverse]
  | 0, piece, x :: rest => piece.reverse :: pieces size (size - 1) [x] rest
  | room + 1, piece, x :: rest => pieces size room (x :: piece) rest

/-- The last block of a chunk, after the blocks before it are compressed. -/
def chunkNode (counter : Nat) :
    ChainingValue → UInt32 → List (List UInt8) → Node
  | chaining, flags, [] => ⟨chaining, Block.ofBytes [], counter, 0, flags ||| flagChunkEnd⟩
  | chaining, flags, [block] =>
    ⟨chaining, Block.ofBytes block, counter, block.length, flags ||| flagChunkEnd⟩
  | chaining, flags, block :: rest =>
    chunkNode counter
      (Node.chainingValue ⟨chaining, Block.ofBytes block, counter, block.length, flags⟩) 0 rest

/-- The node of the chunk with a number. -/
def Node.ofChunk (counter : Nat) (bytes : List UInt8) : Node :=
  chunkNode counter .initial flagChunkStart (pieces 64 64 [] bytes)

/-- The node over two others. -/
def Node.parent (left right : ChainingValue) : Node where
  chaining := .initial
  block := #v[left.low.w0, left.low.w1, left.low.w2, left.low.w3,
    left.high.w0, left.high.w1, left.high.w2, left.high.w3,
    right.low.w0, right.low.w1, right.low.w2, right.low.w3,
    right.high.w0, right.high.w1, right.high.w2, right.high.w3]
  counter := 0
  length := 64
  flags := flagParent

/-- Adds a complete subtree of a height to the complete subtrees left of it, which are given from
right to left with their heights.  Two subtrees of one height are joined. -/
def addSubtree (height : Nat) (value : ChainingValue) :
    List (Nat × ChainingValue) → List (Nat × ChainingValue)
  | [] => [(height, value)]
  | (h, left) :: rest =>
    if h = height then addSubtree (height + 1) (Node.parent left value).chainingValue rest
    else (height, value) :: (h, left) :: rest

/-- The root over the complete subtrees on the left and the node to the right of them. -/
def joinSubtrees (node : Node) : List (Nat × ChainingValue) → Node
  | [] => node
  | (_, left) :: rest => joinSubtrees (Node.parent left node.chainingValue) rest

/-- The root over the chunks that follow the complete subtrees on the left. -/
def treeNode (counter : Nat) (subtrees : List (Nat × ChainingValue)) : List (List UInt8) → Node
  | [] => joinSubtrees (Node.ofChunk counter []) subtrees
  | [chunk] => joinSubtrees (Node.ofChunk counter chunk) subtrees
  | chunk :: rest =>
    treeNode (counter + 1)
      (addSubtree 0 (Node.ofChunk counter chunk).chainingValue subtrees) rest

/-- The first 32 bytes of the hash. -/
def digest (bytes : List UInt8) : List UInt8 :=
  let root := (treeNode 0 [] (pieces 1024 1024 [] bytes)).compress flagRoot
  (root.low.toList ++ root.high.toList).flatMap bytesOfWord

end XcodeProject.Blake3
