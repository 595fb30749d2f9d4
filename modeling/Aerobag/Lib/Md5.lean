import Aerobag.Lib.Slice

/-!
# MD5

The hash function itself (RFC 1321). Words are numbers below `2 ^ 32`.
-/

namespace Md5

def rotl (n x : Nat) : Nat := (x <<< n ||| x >>> (32 - n)) % 2 ^ 32

def complement (x : Nat) : Nat := 2 ^ 32 - 1 - x

def roundConstants : List Nat :=
  [0xd76aa478, 0xe8c7b756, 0x242070db, 0xc1bdceee, 0xf57c0faf, 0x4787c62a, 0xa8304613, 0xfd469501,
    0x698098d8, 0x8b44f7af, 0xffff5bb1, 0x895cd7be, 0x6b901122, 0xfd987193, 0xa679438e, 0x49b40821,
    0xf61e2562, 0xc040b340, 0x265e5a51, 0xe9b6c7aa, 0xd62f105d, 0x02441453, 0xd8a1e681, 0xe7d3fbc8,
    0x21e1cde6, 0xc33707d6, 0xf4d50d87, 0x455a14ed, 0xa9e3e905, 0xfcefa3f8, 0x676f02d9, 0x8d2a4c8a,
    0xfffa3942, 0x8771f681, 0x6d9d6122, 0xfde5380c, 0xa4beea44, 0x4bdecfa9, 0xf6bb4b60, 0xbebfbc70,
    0x289b7ec6, 0xeaa127fa, 0xd4ef3085, 0x04881d05, 0xd9d4d039, 0xe6db99e5, 0x1fa27cf8, 0xc4ac5665,
    0xf4292244, 0x432aff97, 0xab9423a7, 0xfc93a039, 0x655b59c3, 0x8f0ccc92, 0xffeff47d, 0x85845dd1,
    0x6fa87e4f, 0xfe2ce6e0, 0xa3014314, 0x4e0811a1, 0xf7537e82, 0xbd3af235, 0x2ad7d2bb, 0xeb86d391]

structure Words where
  a : Nat
  b : Nat
  c : Nat
  d : Nat
  deriving DecidableEq, Repr

def initial : Words := ⟨0x67452301, 0xefcdab89, 0x98badcfe, 0x10325476⟩

/-- The function of a round, the index of its message word and its rotation. -/
def mix (s : Words) (i : Nat) : Nat × Nat × Nat :=
  if i < 16 then
    ((s.b &&& s.c) ||| (complement s.b &&& s.d), i, [7, 12, 17, 22].getD (i % 4) 0)
  else if i < 32 then
    ((s.d &&& s.b) ||| (complement s.d &&& s.c), (5 * i + 1) % 16, [5, 9, 14, 20].getD (i % 4) 0)
  else if i < 48 then
    (s.b ^^^ s.c ^^^ s.d, (3 * i + 5) % 16, [4, 11, 16, 23].getD (i % 4) 0)
  else
    (s.c ^^^ (s.b ||| complement s.d), 7 * i % 16, [6, 10, 15, 21].getD (i % 4) 0)

def round (block : List Nat) (s : Words) (ki : Nat × Nat) : Words :=
  let (f, g, shift) := mix s ki.2
  let sum := (f + s.a + ki.1 + block.getD g 0) % 2 ^ 32
  ⟨s.d, (s.b + rotl shift sum) % 2 ^ 32, s.b, s.c⟩

def compress (s : Words) (block : List Nat) : Words :=
  let t := roundConstants.zipIdx.foldl (round block) s
  ⟨(s.a + t.a) % 2 ^ 32, (s.b + t.b) % 2 ^ 32, (s.c + t.c) % 2 ^ 32, (s.d + t.d) % 2 ^ 32⟩

/-- The message with its padding: a one bit, zeros, and the length in bits. -/
def pad (message : Bytes) : Bytes :=
  message ++ [0x80] ++ List.replicate ((119 - message.length % 64) % 64) 0 ++
    leBytes 8 (8 * message.length)

def digest (message : Bytes) : Bytes :=
  let blocks := (pieces 64 (pad message)).map fun block => (pieces 4 block).map leNat
  let s := blocks.foldl compress initial
  [s.a, s.b, s.c, s.d].flatMap (leBytes 4)

example : hexBytes (digest (strBytes "abc")) = "900150983cd24fb0d6963f7d28e17f72" := by
  decide +kernel

end Md5
