import Mathlib.Algebra.Group.Nat.Defs
import Autobahn.MsgPack.Object

/-!
# The octets of the format

`writeToken` writes one token: a number in the shortest of its forms, most
significant octet first, and a size before what it announces. What no form holds
cannot be written. `readToken` reads a token by its first octet, and `readValue`
the value at the front of a buffer.

The main result is `readValue_write`: a value that can be written is read back
as itself, and reading stops right behind its last octet.
-/

namespace Autobahn.MsgPack

/-! ## Numbers -/

/-- The last `width` octets of `n`, most significant first. -/
def bigEndian : (width n : Nat) → Octets
  | 0, _ => []
  | width + 1, n => UInt8.ofNat (n / 256 ^ width) :: bigEndian width n

def ofBigEndian (s : Octets) : Nat := s.foldl (fun n b => 256 * n + b.toNat) 0

@[simp] theorem length_bigEndian (width n : Nat) :
    (bigEndian width n).length = width := by
  induction width with
  | zero => rfl
  | succ width ih => rw [bigEndian, List.length_cons, ih]

theorem bigEndian_one (n : Nat) : bigEndian 1 n = [UInt8.ofNat n] := by
  simp [bigEndian]

theorem foldl_bigEndian (width n : Nat) : ∀ a : Nat,
    (bigEndian width n).foldl (fun n b => 256 * n + b.toNat) a =
      256 ^ width * a + n % 256 ^ width := by
  induction width with
  | zero => intro a; simp [bigEndian, Nat.mod_one]
  | succ width ih =>
      intro a
      have hdigit : (UInt8.ofNat (n / 256 ^ width)).toNat = n / 256 ^ width % 256 :=
        UInt8.toNat_ofNat'
      rw [bigEndian, List.foldl_cons, ih, hdigit, Nat.mod_pow_succ, Nat.pow_succ,
        Nat.mul_add, Nat.mul_assoc]
      omega

theorem ofBigEndian_bigEndian {width n : Nat} (h : n < 256 ^ width) :
    ofBigEndian (bigEndian width n) = n := by
  rw [ofBigEndian, foldl_bigEndian, Nat.mul_zero, Nat.zero_add, Nat.mod_eq_of_lt h]

/-! ## Reading octets -/

/-- The next `n` octets. -/
def readOctets (n : Nat) (buffer : Octets) : Option (Octets × Octets) :=
  if n ≤ buffer.length then some (buffer.take n, buffer.drop n) else none

def readNumber (width : Nat) (buffer : Octets) : Option (Nat × Octets) :=
  (readOctets width buffer).map fun (s, rest) => (ofBigEndian s, rest)

theorem readOctets_append (s rest : Octets) :
    readOctets s.length (s ++ rest) = some (s, rest) := by
  simp [readOctets]

theorem readNumber_bigEndian {width n : Nat} (h : n < 256 ^ width) (rest : Octets) :
    readNumber width (bigEndian width n ++ rest) = some (n, rest) := by
  have hread := readOctets_append (bigEndian width n) rest
  rw [length_bigEndian] at hread
  simp only [readNumber, hread, Option.map_some, ofBigEndian_bigEndian h]

/-! ## Writing a token -/

/-- `n` in the first form that holds it: the octet that names the form, and the
number in the width of the form. -/
def writeSized (forms : List (UInt8 × Nat)) (n : Nat) : Option Octets :=
  (forms.find? fun f => n < 256 ^ f.2).map fun f => f.1 :: bigEndian f.2 n

theorem exists_of_writeSized {forms : List (UInt8 × Nat)} {n : Nat} {s : Octets}
    (h : writeSized forms n = some s) :
    ∃ f ∈ forms, n < 256 ^ f.2 ∧ s = f.1 :: bigEndian f.2 n := by
  obtain ⟨f, hf, rfl⟩ := Option.map_eq_some_iff.mp h
  have hlt := List.find?_some hf
  exact ⟨f, List.mem_of_find?_eq_some hf, by simpa using hlt, rfl⟩

/-- `n` below zero, in two's complement. -/
def writeSigned (forms : List (UInt8 × Nat)) (n : Int) : Option Octets :=
  (forms.find? fun f => -(256 ^ f.2 : Nat) ≤ 2 * n).map fun f =>
    f.1 :: bigEndian f.2 (n + (256 ^ f.2 : Nat)).toNat

theorem exists_of_writeSigned {forms : List (UInt8 × Nat)} {n : Int} {s : Octets}
    (h : writeSigned forms n = some s) :
    ∃ f ∈ forms, -(256 ^ f.2 : Nat) ≤ 2 * n ∧
      s = f.1 :: bigEndian f.2 (n + (256 ^ f.2 : Nat)).toNat := by
  obtain ⟨f, hf, rfl⟩ := Option.map_eq_some_iff.mp h
  have hle := List.find?_some hf
  exact ⟨f, List.mem_of_find?_eq_some hf, by simpa using hle, rfl⟩

/-- The head of an extension: five sizes have a form of their own. -/
def writeExtSize : Nat → Option Octets
  | 1 => some [0xD4]
  | 2 => some [0xD5]
  | 4 => some [0xD6]
  | 8 => some [0xD7]
  | 16 => some [0xD8]
  | n => writeSized [(0xC7, 1), (0xC8, 2), (0xC9, 4)] n

/-- What the packer writes for a token. -/
def writeToken : Token → Option Octets
  | .nil => some [0xC0]
  | .boolean false => some [0xC2]
  | .boolean true => some [0xC3]
  | .positiveInteger n =>
      if n.toNat < 128 then some [UInt8.ofNat n.toNat] else
      writeSized [(0xCC, 1), (0xCD, 2), (0xCE, 4), (0xCF, 8)] n.toNat
  | .negativeInteger n =>
      if 0 ≤ n then none
      else if -32 ≤ n then some [UInt8.ofNat (n + 256).toNat]
      else writeSigned [(0xD0, 1), (0xD1, 2), (0xD2, 4), (0xD3, 8)] n
  | .float bits => some (0xCB :: bigEndian 8 bits.toNat)
  | .str s =>
      (if s.length < 32 then some [UInt8.ofNat (0xA0 + s.length)] else
        writeSized [(0xD9, 1), (0xDA, 2), (0xDB, 4)] s.length).map (· ++ s)
  | .bin s =>
      (writeSized [(0xC4, 1), (0xC5, 2), (0xC6, 4)] s.length).map (· ++ s)
  | .arrayHeader n =>
      if n < 16 then some [UInt8.ofNat (0x90 + n)] else
      writeSized [(0xDC, 2), (0xDD, 4)] n
  | .mapHeader n =>
      if n < 16 then some [UInt8.ofNat (0x80 + n)] else
      writeSized [(0xDE, 2), (0xDF, 4)] n
  | .ext code data =>
      if code < -128 ∨ 127 < code then none else
      (writeExtSize data.length).map (· ++ UInt8.ofNat (code % 256).toNat :: data)

/-! ## Which tokens have a form -/

/-- A size takes up to four octets and a negative integer up to eight. -/
def Token.Fits : Token → Prop
  | .negativeInteger n => n < 0 ∧ -(256 ^ 8 : Nat) ≤ 2 * n
  | .str s | .bin s => s.length < 256 ^ 4
  | .arrayHeader n | .mapHeader n => n < 256 ^ 4
  | .ext code data => -128 ≤ code ∧ code ≤ 127 ∧ data.length < 256 ^ 4
  | _ => True

theorem exists_writeSized {forms : List (UInt8 × Nat)} {f : UInt8 × Nat} {n : Nat}
    (hf : f ∈ forms) (h : n < 256 ^ f.2) : ∃ s, writeSized forms n = some s := by
  have hsome : (forms.find? fun f => n < 256 ^ f.2).isSome :=
    List.find?_isSome.mpr ⟨f, hf, by simpa using h⟩
  obtain ⟨f', hf'⟩ := Option.isSome_iff_exists.mp hsome
  exact ⟨_, Option.map_eq_some_iff.mpr ⟨f', hf', rfl⟩⟩

theorem exists_writeSigned {forms : List (UInt8 × Nat)} {f : UInt8 × Nat} {n : Int}
    (hf : f ∈ forms) (h : -(256 ^ f.2 : Nat) ≤ 2 * n) :
    ∃ s, writeSigned forms n = some s := by
  have hsome : (forms.find? fun f => -(256 ^ f.2 : Nat) ≤ 2 * n).isSome :=
    List.find?_isSome.mpr ⟨f, hf, by simpa using h⟩
  obtain ⟨f', hf'⟩ := Option.isSome_iff_exists.mp hsome
  exact ⟨_, Option.map_eq_some_iff.mpr ⟨f', hf', rfl⟩⟩

theorem exists_writeExtSize {n : Nat} (h : n < 256 ^ 4) :
    ∃ s, writeExtSize n = some s := by
  unfold writeExtSize
  split
  case h_6 =>
    exact exists_writeSized (f := (0xC9, 4)) (by decide) h
  all_goals exact ⟨_, rfl⟩

theorem Token.Fits.write {t : Token} (h : t.Fits) : ∃ s, writeToken t = some s := by
  cases t with
  | nil => exact ⟨_, rfl⟩
  | boolean b => cases b <;> exact ⟨_, rfl⟩
  | float bits => exact ⟨_, rfl⟩
  | positiveInteger n =>
      rw [writeToken]
      split
      · exact ⟨_, rfl⟩
      · exact exists_writeSized (f := (0xCF, 8)) (by decide) n.toNat_lt
  | negativeInteger n =>
      obtain ⟨hneg, hle⟩ := h
      rw [writeToken, if_neg (by omega)]
      split
      · exact ⟨_, rfl⟩
      · exact exists_writeSigned (f := (0xD3, 8)) (by decide) hle
  | str s =>
      rw [writeToken]
      split
      · exact ⟨_, rfl⟩
      · obtain ⟨d, hd⟩ := exists_writeSized (f := (0xDB, 4))
          (by decide : _ ∈ [(0xD9, 1), (0xDA, 2), ((0xDB : UInt8), 4)]) h
        exact ⟨d ++ s, by rw [hd]; rfl⟩
  | bin s =>
      obtain ⟨d, hd⟩ := exists_writeSized (f := (0xC6, 4))
        (by decide : _ ∈ [(0xC4, 1), (0xC5, 2), ((0xC6 : UInt8), 4)]) h
      exact ⟨d ++ s, by rw [writeToken, hd]; rfl⟩
  | arrayHeader n =>
      rw [writeToken]
      split
      · exact ⟨_, rfl⟩
      · exact exists_writeSized (f := (0xDD, 4)) (by decide) h
  | mapHeader n =>
      rw [writeToken]
      split
      · exact ⟨_, rfl⟩
      · exact exists_writeSized (f := (0xDF, 4)) (by decide) h
  | ext code data =>
      obtain ⟨hlo, hhi, hdata⟩ := h
      obtain ⟨d, hd⟩ := exists_writeExtSize hdata
      exact ⟨_, by rw [writeToken, if_neg (by omega), hd]; rfl⟩

/-! ## Reading a token -/

def signed (width n : Nat) : Token :=
  if 2 * n < 256 ^ width then .positiveInteger (UInt64.ofNat n)
  else .negativeInteger (n - (256 ^ width : Nat))

def readStr (n : Nat) (buffer : Octets) : Option (Token × Octets) := do
  let (s, rest) ← readOctets n buffer
  some (.str s, rest)

def readBin (n : Nat) (buffer : Octets) : Option (Token × Octets) := do
  let (s, rest) ← readOctets n buffer
  some (.bin s, rest)

def readExt (n : Nat) (buffer : Octets) : Option (Token × Octets) := do
  let (code, buffer) ← readNumber 1 buffer
  let (data, rest) ← readOctets n buffer
  some (.ext (if code < 128 then code else code - 256) data, rest)

/-- A number of the given width, and the token that goes on from it. -/
def readWith (width : Nat) (go : Nat → Octets → Option (Token × Octets))
    (buffer : Octets) : Option (Token × Octets) := do
  let (n, buffer) ← readNumber width buffer
  go n buffer

def readPositive (n : Nat) (rest : Octets) : Option (Token × Octets) :=
  some (.positiveInteger (UInt64.ofNat n), rest)

def readSigned (width n : Nat) (rest : Octets) : Option (Token × Octets) :=
  some (signed width n, rest)

def readFloat (n : Nat) (rest : Octets) : Option (Token × Octets) :=
  some (.float (UInt64.ofNat n), rest)

def readArray (n : Nat) (rest : Octets) : Option (Token × Octets) :=
  some (.arrayHeader n, rest)

def readMap (n : Nat) (rest : Octets) : Option (Token × Octets) :=
  some (.mapHeader n, rest)

/-- The forms that name themselves in an octet of their own. The 32-bit floats
are the one form that stands for no token. -/
def readForm (b : Nat) (buffer : Octets) : Option (Token × Octets) :=
  match b with
  | 0xC0 => some (.nil, buffer)
  | 0xC2 => some (.boolean false, buffer)
  | 0xC3 => some (.boolean true, buffer)
  | 0xC4 => readWith 1 readBin buffer
  | 0xC5 => readWith 2 readBin buffer
  | 0xC6 => readWith 4 readBin buffer
  | 0xC7 => readWith 1 readExt buffer
  | 0xC8 => readWith 2 readExt buffer
  | 0xC9 => readWith 4 readExt buffer
  | 0xCB => readWith 8 readFloat buffer
  | 0xCC => readWith 1 readPositive buffer
  | 0xCD => readWith 2 readPositive buffer
  | 0xCE => readWith 4 readPositive buffer
  | 0xCF => readWith 8 readPositive buffer
  | 0xD0 => readWith 1 (readSigned 1) buffer
  | 0xD1 => readWith 2 (readSigned 2) buffer
  | 0xD2 => readWith 4 (readSigned 4) buffer
  | 0xD3 => readWith 8 (readSigned 8) buffer
  | 0xD4 => readExt 1 buffer
  | 0xD5 => readExt 2 buffer
  | 0xD6 => readExt 4 buffer
  | 0xD7 => readExt 8 buffer
  | 0xD8 => readExt 16 buffer
  | 0xD9 => readWith 1 readStr buffer
  | 0xDA => readWith 2 readStr buffer
  | 0xDB => readWith 4 readStr buffer
  | 0xDC => readWith 2 readArray buffer
  | 0xDD => readWith 4 readArray buffer
  | 0xDE => readWith 2 readMap buffer
  | 0xDF => readWith 4 readMap buffer
  | _ => none

/-- `b` is the first octet. -/
def readFrom (b : Nat) (buffer : Octets) : Option (Token × Octets) :=
  if b < 0x80 then readPositive b buffer
  else if b < 0x90 then readMap (b - 0x80) buffer
  else if b < 0xA0 then readArray (b - 0x90) buffer
  else if b < 0xC0 then readStr (b - 0xA0) buffer
  else if b < 0xE0 then readForm b buffer
  else some (.negativeInteger (b - 256), buffer)

/-- The token at the front of a buffer. -/
def readToken : Octets → Option (Token × Octets)
  | [] => none
  | b :: buffer => readFrom b.toNat buffer

/-! ## A token is read back -/

theorem readToken_ofNat {b : Nat} (h : b < 256) (buffer : Octets) :
    readToken (UInt8.ofNat b :: buffer) = readFrom b buffer := by
  rw [readToken, UInt8.toNat_ofNat', Nat.mod_eq_of_lt h]

theorem readWith_bigEndian {width n : Nat} (h : n < 256 ^ width)
    (go : Nat → Octets → Option (Token × Octets)) (rest : Octets) :
    readWith width go (bigEndian width n ++ rest) = go n rest := by
  simp only [readWith, readNumber_bigEndian h, Option.bind_eq_bind, Option.bind_some]

/-- Whichever form a number is written in, it is read by what that form goes on
with. -/
theorem readToken_writeSized {forms : List (UInt8 × Nat)} {n : Nat} {s : Octets}
    (h : writeSized forms n = some s) {go : Nat → Octets → Option (Token × Octets)}
    (hgo : ∀ f ∈ forms, ∀ buffer, readToken (f.1 :: buffer) = readWith f.2 go buffer)
    (rest : Octets) : readToken (s ++ rest) = go n rest := by
  obtain ⟨f, hf, hlt, rfl⟩ := exists_of_writeSized h
  rw [List.cons_append, hgo f hf, readWith_bigEndian hlt]

theorem readStr_append (s rest : Octets) :
    readStr s.length (s ++ rest) = some (.str s, rest) := by
  simp [readStr, readOctets_append]

theorem readBin_append (s rest : Octets) :
    readBin s.length (s ++ rest) = some (.bin s, rest) := by
  simp [readBin, readOctets_append]

theorem readExt_append {code : Int} (hlo : -128 ≤ code) (hhi : code ≤ 127)
    (data rest : Octets) :
    readExt data.length (UInt8.ofNat (code % 256).toNat :: (data ++ rest)) =
      some (.ext code data, rest) := by
  have hlt : (code % 256).toNat < 256 ^ 1 := by omega
  have hcode := readNumber_bigEndian hlt (data ++ rest)
  rw [bigEndian_one, List.singleton_append] at hcode
  simp only [readExt, hcode, readOctets_append, Option.bind_eq_bind, Option.bind_some,
    Option.some.injEq, Prod.mk.injEq, Token.ext.injEq, and_true]
  split <;> omega

theorem readToken_positiveInteger {n : UInt64} {s : Octets}
    (h : writeToken (.positiveInteger n) = some s) (rest : Octets) :
    readToken (s ++ rest) = some (.positiveInteger n, rest) := by
  have hn : readPositive n.toNat rest = some (.positiveInteger n, rest) := by
    rw [readPositive, UInt64.ofNat_toNat]
  rw [← hn]
  simp only [writeToken] at h
  split at h
  · next hlt =>
    obtain rfl := Option.some.inj h
    rw [List.singleton_append, readToken_ofNat (by omega), readFrom, if_pos hlt]
  · refine readToken_writeSized h ?_ rest
    simp only [List.forall_mem_cons, List.not_mem_nil, false_implies, implies_true,
      and_true]
    exact ⟨fun _ => rfl, fun _ => rfl, fun _ => rfl, fun _ => rfl⟩

theorem readToken_negativeInteger {n : Int} {s : Octets}
    (h : writeToken (.negativeInteger n) = some s) (rest : Octets) :
    readToken (s ++ rest) = some (.negativeInteger n, rest) := by
  simp only [writeToken] at h
  split at h
  · cases h
  · next hneg =>
    split at h
    · next hsmall =>
      obtain rfl := Option.some.inj h
      have hb : ((n + 256).toNat : Int) - 256 = n := by omega
      rw [List.singleton_append, readToken_ofNat (by omega), readFrom,
        if_neg (by omega), if_neg (by omega), if_neg (by omega), if_neg (by omega),
        if_neg (by omega), hb]
    · obtain ⟨f, hf, hle, rfl⟩ := exists_of_writeSigned h
      have hread : readToken (f.1 :: (bigEndian f.2 (n + (256 ^ f.2 : Nat)).toNat ++
          rest)) = readWith f.2 (readSigned f.2)
            (bigEndian f.2 (n + (256 ^ f.2 : Nat)).toNat ++ rest) := by
        simp only [List.mem_cons, List.not_mem_nil, or_false] at hf
        rcases hf with rfl | rfl | rfl | rfl <;> rfl
      rw [List.cons_append, hread, readWith_bigEndian (by omega), readSigned, signed,
        if_neg (by omega)]
      congr 3
      omega

theorem readToken_str {v s : Octets} (h : writeToken (.str v) = some s)
    (rest : Octets) : readToken (s ++ rest) = some (.str v, rest) := by
  obtain ⟨head, hhead, rfl⟩ := Option.map_eq_some_iff.mp h
  rw [← readStr_append v rest, List.append_assoc]
  split at hhead
  · next hlt =>
    obtain rfl := Option.some.inj hhead
    rw [List.singleton_append, readToken_ofNat (by omega), readFrom,
      if_neg (by omega), if_neg (by omega), if_neg (by omega), if_pos (by omega),
      Nat.add_sub_cancel_left]
  · refine readToken_writeSized hhead ?_ (v ++ rest)
    simp only [List.forall_mem_cons, List.not_mem_nil, false_implies, implies_true,
      and_true]
    exact ⟨fun _ => rfl, fun _ => rfl, fun _ => rfl⟩

theorem readToken_bin {v s : Octets} (h : writeToken (.bin v) = some s)
    (rest : Octets) : readToken (s ++ rest) = some (.bin v, rest) := by
  obtain ⟨head, hhead, rfl⟩ := Option.map_eq_some_iff.mp h
  rw [← readBin_append v rest, List.append_assoc]
  refine readToken_writeSized hhead ?_ (v ++ rest)
  simp only [List.forall_mem_cons, List.not_mem_nil, false_implies, implies_true,
    and_true]
  exact ⟨fun _ => rfl, fun _ => rfl, fun _ => rfl⟩

theorem readToken_arrayHeader {n : Nat} {s : Octets}
    (h : writeToken (.arrayHeader n) = some s) (rest : Octets) :
    readToken (s ++ rest) = some (.arrayHeader n, rest) := by
  simp only [writeToken] at h
  split at h
  · next hlt =>
    obtain rfl := Option.some.inj h
    rw [List.singleton_append, readToken_ofNat (by omega), readFrom,
      if_neg (by omega), if_neg (by omega), if_pos (by omega), readArray,
      Nat.add_sub_cancel_left]
  · show readToken (s ++ rest) = readArray n rest
    refine readToken_writeSized h ?_ rest
    simp only [List.forall_mem_cons, List.not_mem_nil, false_implies, implies_true,
      and_true]
    exact ⟨fun _ => rfl, fun _ => rfl⟩

theorem readToken_mapHeader {n : Nat} {s : Octets}
    (h : writeToken (.mapHeader n) = some s) (rest : Octets) :
    readToken (s ++ rest) = some (.mapHeader n, rest) := by
  simp only [writeToken] at h
  split at h
  · next hlt =>
    obtain rfl := Option.some.inj h
    rw [List.singleton_append, readToken_ofNat (by omega), readFrom,
      if_neg (by omega), if_pos (by omega), readMap, Nat.add_sub_cancel_left]
  · show readToken (s ++ rest) = readMap n rest
    refine readToken_writeSized h ?_ rest
    simp only [List.forall_mem_cons, List.not_mem_nil, false_implies, implies_true,
      and_true]
    exact ⟨fun _ => rfl, fun _ => rfl⟩

theorem readToken_ext {code : Int} {data s : Octets}
    (h : writeToken (.ext code data) = some s) (rest : Octets) :
    readToken (s ++ rest) = some (.ext code data, rest) := by
  simp only [writeToken] at h
  split at h
  · cases h
  · next hcode =>
    obtain ⟨head, hhead, rfl⟩ := Option.map_eq_some_iff.mp h
    have hext := readExt_append (by omega : -128 ≤ code) (by omega) data rest
    rw [← hext, List.append_assoc, List.cons_append]
    generalize data.length = n at hhead
    unfold writeExtSize at hhead
    split at hhead
    iterate 5
      · obtain rfl := Option.some.inj hhead
        rfl
    refine readToken_writeSized hhead ?_ _
    simp only [List.forall_mem_cons, List.not_mem_nil, false_implies, implies_true,
      and_true]
    exact ⟨fun _ => rfl, fun _ => rfl, fun _ => rfl⟩

/-- **A token is read back**, whatever follows it. -/
theorem readToken_write {t : Token} {s : Octets} (h : writeToken t = some s)
    (rest : Octets) : readToken (s ++ rest) = some (t, rest) := by
  cases t with
  | nil =>
      obtain rfl := Option.some.inj h
      rfl
  | boolean b =>
      cases b <;>
        · obtain rfl := Option.some.inj h
          rfl
  | positiveInteger n => exact readToken_positiveInteger h rest
  | negativeInteger n => exact readToken_negativeInteger h rest
  | float bits =>
      obtain rfl := Option.some.inj h
      have hlt : bits.toNat < 256 ^ 8 := bits.toNat_lt
      show readWith 8 readFloat (bigEndian 8 bits.toNat ++ rest) = _
      rw [readWith_bigEndian hlt, readFloat, UInt64.ofNat_toNat]
  | str v => exact readToken_str h rest
  | bin v => exact readToken_bin h rest
  | arrayHeader n => exact readToken_arrayHeader h rest
  | mapHeader n => exact readToken_mapHeader h rest
  | ext code data => exact readToken_ext h rest

/-! ## Values -/

/-- What the packer writes for a list of tokens. -/
def writeAll : List Token → Option Octets
  | [] => some []
  | t :: ts => do
      let s ← writeToken t
      let r ← writeAll ts
      some (s ++ r)

/-- Reads `count` values. As much fuel as there are octets never runs out. -/
def readValues : (fuel count : Nat) → Octets → Option (List Object × Octets)
  | _, 0, buffer => some ([], buffer)
  | 0, _ + 1, _ => none
  | fuel + 1, count + 1, buffer => do
      let (t, buffer) ← readToken buffer
      let (o, rest) ← match t with
        | .nil => some (Object.nil, buffer)
        | .boolean b => some (.boolean b, buffer)
        | .positiveInteger n => some (.positiveInteger n, buffer)
        | .negativeInteger n => some (.negativeInteger n, buffer)
        | .float bits => some (.float bits, buffer)
        | .str s => some (.str s, buffer)
        | .bin s => some (.bin s, buffer)
        | .ext code data => some (.ext code data, buffer)
        | .arrayHeader size =>
            (readValues fuel size buffer).map fun (os, rest) => (.array os, rest)
        | .mapHeader size =>
            (readValues fuel (2 * size) buffer).map fun (os, rest) =>
              (.map (pairUp os), rest)
      let (os, rest) ← readValues fuel count rest
      some (o :: os, rest)

/-- The value at the front of a buffer, and what follows it. -/
def readValue (buffer : Octets) : Option (Object × Octets) :=
  match readValues buffer.length 1 buffer with
  | some ([o], rest) => some (o, rest)
  | _ => none

theorem exists_of_writeAll_cons {t : Token} {ts : List Token} {s : Octets}
    (h : writeAll (t :: ts) = some s) :
    ∃ head tail, writeToken t = some head ∧ writeAll ts = some tail ∧
      s = head ++ tail := by
  obtain ⟨head, hhead, h⟩ := Option.bind_eq_some_iff.mp h
  obtain ⟨tail, htail, h⟩ := Option.bind_eq_some_iff.mp h
  exact ⟨head, tail, hhead, htail, (Option.some.inj h).symm⟩

theorem exists_writeAll {ts : List Token} (h : ∀ t ∈ ts, t.Fits) :
    ∃ s, writeAll ts = some s := by
  induction ts with
  | nil => exact ⟨[], rfl⟩
  | cons t ts ih =>
      obtain ⟨ht, hts⟩ := List.forall_mem_cons.mp h
      obtain ⟨head, hhead⟩ := ht.write
      obtain ⟨tail, htail⟩ := ih hts
      exact ⟨head ++ tail, by simp [writeAll, hhead, htail]⟩

theorem length_writeToken_pos {t : Token} {s : Octets} (h : writeToken t = some s) :
    0 < s.length := by
  have hread := readToken_write h []
  cases s with
  | nil => cases hread
  | cons b s => simp

/-- Up to 65535 a size takes one octet or two. -/
theorem length_writeSized {b c : UInt8} {forms : List (UInt8 × Nat)} {n : Nat}
    {d : Octets} (h : writeSized ((b, 1) :: (c, 2) :: forms) n = some d)
    (hn : n < 65536) : d.length ≤ 3 := by
  rw [writeSized] at h
  by_cases hbyte : n < 256
  · rw [List.find?_cons_of_pos (by simpa using hbyte)] at h
    obtain rfl := Option.some.inj h
    simp
  · have hfind : ((b, 1) :: (c, 2) :: forms).find?
        (fun f => decide (n < 256 ^ f.2)) = some (c, 2) := by
      simp [hbyte, hn]
    rw [hfind] at h
    obtain rfl := Option.some.inj h
    simp

theorem length_writeToken_str {s d : Octets} (h : writeToken (.str s) = some d)
    (hs : s.length < 65536) : d.length ≤ s.length + 3 := by
  obtain ⟨head, hhead, rfl⟩ := Option.map_eq_some_iff.mp h
  rw [List.length_append]
  split at hhead
  · obtain rfl := Option.some.inj hhead
    rw [List.length_singleton]
    omega
  · have hle := length_writeSized hhead hs
    omega

/-- Every token takes an octet. -/
theorem length_le_writeAll {ts : List Token} : ∀ {s : Octets},
    writeAll ts = some s → ts.length ≤ s.length := by
  induction ts with
  | nil => simp
  | cons t ts ih =>
      intro s h
      obtain ⟨head, tail, hhead, htail, rfl⟩ := exists_of_writeAll_cons h
      have hpos := length_writeToken_pos hhead
      have hle := ih htail
      simp only [List.length_cons, List.length_append]
      omega

/-- **Octets are read as the tokens they spell.** What `unpackN` reads in a list
of tokens, `readValues` reads in their octets, and both stop at the same place. -/
theorem readValues_of_unpackN {fuel : Nat} : ∀ {count : Nat} {ts ts' : List Token}
    {os : List Object} {s : Octets} (rest : Octets),
    unpackN fuel count ts = some (os, ts') → writeAll ts = some s →
    ∃ s', writeAll ts' = some s' ∧
      readValues fuel count (s ++ rest) = some (os, s' ++ rest) := by
  induction fuel with
  | zero =>
      intro count ts ts' os s rest h hs
      cases count with
      | zero =>
          obtain ⟨rfl, rfl⟩ := Prod.mk.inj (Option.some.inj h)
          exact ⟨s, hs, rfl⟩
      | succ count => cases h
  | succ fuel ih =>
      intro count ts ts' os s rest h hs
      cases count with
      | zero =>
          obtain ⟨rfl, rfl⟩ := Prod.mk.inj (Option.some.inj h)
          exact ⟨s, hs, rfl⟩
      | succ count =>
      cases ts with
      | nil => cases h
      | cons t ts =>
      obtain ⟨head, tail, hhead, htail, rfl⟩ := exists_of_writeAll_cons hs
      rw [readValues, List.append_assoc, readToken_write hhead]
      -- Behind the first value both go on with the rest of the count.
      have hnext : ∀ {o : Object} {ts₁ : List Token} {s₁ : Octets},
          ((unpackN fuel count ts₁).bind fun p => some (o :: p.1, p.2)) =
            some (os, ts') → writeAll ts₁ = some s₁ →
          ∃ s', writeAll ts' = some s' ∧
            ((readValues fuel count (s₁ ++ rest)).bind fun p =>
              some (o :: p.1, p.2)) = some (os, s' ++ rest) := by
        intro o ts₁ s₁ h hs₁
        obtain ⟨⟨os', ts₂⟩, hrest, h⟩ := Option.bind_eq_some_iff.mp h
        obtain ⟨rfl, rfl⟩ := Prod.mk.inj (Option.some.inj h)
        obtain ⟨s', hs', hread⟩ := ih rest hrest hs₁
        exact ⟨s', hs', by rw [hread, Option.bind_some]⟩
      cases t with
      | arrayHeader size =>
          obtain ⟨⟨o, ts₁⟩, hfirst, h⟩ := Option.bind_eq_some_iff.mp h
          obtain ⟨⟨vs, r⟩, hvs, heq⟩ := Option.map_eq_some_iff.mp hfirst
          obtain ⟨rfl, rfl⟩ := Prod.mk.inj heq
          obtain ⟨s₁, hs₁, hread⟩ := ih rest hvs htail
          simpa [hread] using hnext h hs₁
      | mapHeader size =>
          obtain ⟨⟨o, ts₁⟩, hfirst, h⟩ := Option.bind_eq_some_iff.mp h
          obtain ⟨⟨vs, r⟩, hvs, heq⟩ := Option.map_eq_some_iff.mp hfirst
          obtain ⟨rfl, rfl⟩ := Prod.mk.inj heq
          obtain ⟨s₁, hs₁, hread⟩ := ih rest hvs htail
          simpa [hread] using hnext h hs₁
      | _ => exact hnext h htail

/-- **Round trip in octets.** A value that can be written is read back as itself,
and reading stops right behind its last octet, whatever follows. -/
theorem readValue_write {o : Object} {s : Octets} (h : writeAll (pack o) = some s)
    (rest : Octets) : readValue (s ++ rest) = some (o, rest) := by
  have hpos := pack_length_pos o
  have hle := length_le_writeAll h
  obtain ⟨n, hn⟩ : ∃ n, (s ++ rest).length = n + 1 :=
    ⟨(s ++ rest).length - 1, by simp; omega⟩
  have hfuel : (pack o).length ≤ n + 1 := by
    rw [← hn, List.length_append]
    omega
  have hunpack := unpackN_pack o n 0 [] hfuel
  rw [List.append_nil, unpackN_zero, Option.bind_some] at hunpack
  obtain ⟨s', hs', hread⟩ := readValues_of_unpackN rest hunpack h
  obtain rfl := Option.some.inj hs'
  rw [readValue, hn, hread]
  rfl

example : readValue [0x92, 0xCD, 1, 2, 0xA1, 65, 7] =
    some (.array [.positiveInteger 258, .str [65]], [7]) := rfl

end Autobahn.MsgPack
