import ReplayRenderer.Lib.Bytes

/-!
BLAKE3, unkeyed, 32 bytes of output. Words are naturals below `2 ^ 32` and
the sixteen-word state is kept as four columns, so that a column step works
on one of them and a diagonal step is a column step between two rotations
of the rows. The development never reasons about this function: hashes are
a parameter of the model, and this is the value of that parameter where a
statement is about concrete files.
-/

namespace Lib.Blake3

def add32 (a b : Nat) : Nat := (a + b) % 2 ^ 32

def rotr (x k : Nat) : Nat := (x >>> k) ||| ((x <<< (32 - k)) % 2 ^ 32)

structure Column where
  a : Nat
  b : Nat
  c : Nat
  d : Nat

structure State where
  c0 : Column
  c1 : Column
  c2 : Column
  c3 : Column

structure Words8 where
  h0 : Nat
  h1 : Nat
  h2 : Nat
  h3 : Nat
  h4 : Nat
  h5 : Nat
  h6 : Nat
  h7 : Nat

def iv : Words8 :=
  ⟨0x6A09E667, 0xBB67AE85, 0x3C6EF372, 0xA54FF53A,
    0x510E527F, 0x9B05688C, 0x1F83D9AB, 0x5BE0CD19⟩

/-- The quarter round. -/
def mix (col : Column) (mx my : Nat) : Column :=
  match col with
  | ⟨a, b, c, d⟩ =>
    let a := add32 (add32 a b) mx
    let d := rotr (d ^^^ a) 16
    let c := add32 c d
    let b := rotr (b ^^^ c) 12
    let a := add32 (add32 a b) my
    let d := rotr (d ^^^ a) 8
    let c := add32 c d
    let b := rotr (b ^^^ c) 7
    ⟨a, b, c, d⟩

def diagonalize : State → State
  | ⟨⟨a0, b0, c0, d0⟩, ⟨a1, b1, c1, d1⟩, ⟨a2, b2, c2, d2⟩, ⟨a3, b3, c3, d3⟩⟩ =>
    ⟨⟨a0, b1, c2, d3⟩, ⟨a1, b2, c3, d0⟩, ⟨a2, b3, c0, d1⟩, ⟨a3, b0, c1, d2⟩⟩

def undiagonalize : State → State
  | ⟨⟨a0, b1, c2, d3⟩, ⟨a1, b2, c3, d0⟩, ⟨a2, b3, c0, d1⟩, ⟨a3, b0, c1, d2⟩⟩ =>
    ⟨⟨a0, b0, c0, d0⟩, ⟨a1, b1, c1, d1⟩, ⟨a2, b2, c2, d2⟩, ⟨a3, b3, c3, d3⟩⟩

def mixColumns (s : State) : List Nat → State
  | [m0, m1, m2, m3, m4, m5, m6, m7] =>
    ⟨mix s.c0 m0 m1, mix s.c1 m2 m3, mix s.c2 m4 m5, mix s.c3 m6 m7⟩
  | _ => s

def round (s : State) (m : List Nat) : State :=
  undiagonalize (mixColumns (diagonalize (mixColumns s (m.take 8))) (m.drop 8))

def permute : List Nat → List Nat
  | [m0, m1, m2, m3, m4, m5, m6, m7, m8, m9, m10, m11, m12, m13, m14, m15] =>
    [m2, m6, m3, m10, m7, m0, m4, m13, m1, m11, m12, m5, m9, m14, m15, m8]
  | m => m

def rounds : Nat → State → List Nat → State
  | 0, s, _ => s
  | n + 1, s, m => rounds n (round s m) (permute m)

def flagChunkStart : Nat := 1
def flagChunkEnd : Nat := 2
def flagParent : Nat := 4
def flagRoot : Nat := 8

/-- The compression function, its output cut to a chaining value. -/
def compress (cv : Words8) (m : List Nat) (counter len flags : Nat) : Words8 :=
  match rounds 7
      ⟨⟨cv.h0, cv.h4, iv.h0, counter % 2 ^ 32⟩, ⟨cv.h1, cv.h5, iv.h1, counter / 2 ^ 32⟩,
        ⟨cv.h2, cv.h6, iv.h2, len⟩, ⟨cv.h3, cv.h7, iv.h3, flags⟩⟩ m with
  | ⟨⟨a0, b0, c0, d0⟩, ⟨a1, b1, c1, d1⟩, ⟨a2, b2, c2, d2⟩, ⟨a3, b3, c3, d3⟩⟩ =>
    ⟨a0 ^^^ c0, a1 ^^^ c1, a2 ^^^ c2, a3 ^^^ c3, b0 ^^^ d0, b1 ^^^ d1, b2 ^^^ d2, b3 ^^^ d3⟩

/-- The first `n` little-endian words of a block, zeros past its end. -/
def wordsOf : Nat → Bytes → List Nat
  | 0, _ => []
  | n + 1, bs => leNat (bs.take 4) :: wordsOf n (bs.drop 4)

/-- The chaining value of a chunk of at most 1024 bytes: at most sixteen
blocks, the first and the last flagged. -/
def chunkBlocks (root counter : Nat) : Nat → Nat → Words8 → Bytes → Words8
  | 0, _, cv, _ => cv
  | n + 1, start, cv, bs =>
    if bs.length ≤ 64 then
      compress cv (wordsOf 16 bs) counter bs.length (start + flagChunkEnd + root)
    else
      chunkBlocks root counter n 0
        (compress cv (wordsOf 16 (bs.take 64)) counter 64 start) (bs.drop 64)

def chunk (root counter : Nat) (bs : Bytes) : Words8 :=
  chunkBlocks root counter 16 flagChunkStart iv bs

def parent (root : Nat) (l r : Words8) : Words8 :=
  compress iv
    [l.h0, l.h1, l.h2, l.h3, l.h4, l.h5, l.h6, l.h7,
      r.h0, r.h1, r.h2, r.h3, r.h4, r.h5, r.h6, r.h7] 0 64 (flagParent + root)

/-- One level of the tree: neighbours are paired, an odd last node moves up
as it is. -/
def pairUp : List Words8 → List Words8
  | l :: r :: rest => parent 0 l r :: pairUp rest
  | rest => rest

def tree : Nat → List Words8 → Words8
  | n + 1, cvs =>
    match cvs with
    | [l, r] => parent flagRoot l r
    | cvs => tree n (pairUp cvs)
  | 0, _ => iv

/-- The chaining values of the chunks, numbered from `counter`. -/
def chunks : Nat → Nat → Bytes → List Words8
  | 0, _, _ => []
  | n + 1, counter, bs =>
    if bs.length ≤ 1024 then
      [chunk 0 counter bs]
    else
      chunk 0 counter (bs.take 1024) :: chunks n (counter + 1) (bs.drop 1024)

def root (bs : Bytes) : Words8 :=
  if bs.length ≤ 1024 then
    chunk flagRoot 0 bs
  else
    tree bs.length (chunks bs.length 0 bs)

def hash (bs : Bytes) : Bytes32 :=
  let w := root bs
  ⟨leBytes 4 w.h0 ++ leBytes 4 w.h1 ++ leBytes 4 w.h2 ++ leBytes 4 w.h3 ++
      leBytes 4 w.h4 ++ leBytes 4 w.h5 ++ leBytes 4 w.h6 ++ leBytes 4 w.h7, by simp⟩

example : (hash (utf8 "abc")).bytes.take 4 = [0x64, 0x37, 0xb3, 0xac] := by
  decide +kernel

end Lib.Blake3
