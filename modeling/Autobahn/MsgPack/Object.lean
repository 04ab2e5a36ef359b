import Mathlib.Data.List.Basic

/-!
# MessagePack values and their wire form

`Object` is a decoded value, `Token` one item of the wire form: a scalar, a
string, or the header of an array or map that announces how many values
follow. A packer appends tokens; `unpack` reads values back.

The main result is `unpack_pack`: a packed value is read back as itself and
the reader stops exactly behind it, whatever follows.
-/

namespace Autobahn.MsgPack

/-- The contents of a `std::string`: octets, not characters. -/
abbrev Octets : Type := List UInt8

/-- The octets of an ASCII literal. -/
def octets (s : String) : Octets := s.toList.map fun c => c.toNat.toUInt8

inductive Object : Type where
  | nil
  | boolean (b : Bool)
  | positiveInteger (n : UInt64)
  | negativeInteger (n : Int)
  | float (bits : UInt64)
  | str (s : Octets)
  | bin (s : Octets)
  | array (elements : List Object)
  | map (entries : List (Object × Object))
  | ext (code : Int) (data : Octets)
deriving Inhabited

/-- `msgpack::type::object_type`. -/
inductive ObjectType : Type where
  | NIL | BOOLEAN | POSITIVE_INTEGER | NEGATIVE_INTEGER | FLOAT
  | STR | BIN | ARRAY | MAP | EXT
deriving DecidableEq

namespace Object

def type : Object → ObjectType
  | .nil => .NIL
  | .boolean _ => .BOOLEAN
  | .positiveInteger _ => .POSITIVE_INTEGER
  | .negativeInteger _ => .NEGATIVE_INTEGER
  | .float _ => .FLOAT
  | .str _ => .STR
  | .bin _ => .BIN
  | .array _ => .ARRAY
  | .map _ => .MAP
  | .ext _ _ => .EXT

@[simp] theorem type_positiveInteger (n : UInt64) :
    (positiveInteger n).type = .POSITIVE_INTEGER := rfl

@[simp] theorem type_str (s : Octets) : (str s).type = .STR := rfl

@[simp] theorem type_array (a : List Object) : (array a).type = .ARRAY := rfl

@[simp] theorem type_map (m : List (Object × Object)) :
    (map m).type = .MAP := rfl

theorem type_eq_POSITIVE_INTEGER {o : Object} :
    o.type = .POSITIVE_INTEGER ↔ ∃ n, o = .positiveInteger n := by
  cases o <;> simp [type]

theorem type_eq_ARRAY {o : Object} :
    o.type = .ARRAY ↔ ∃ a, o = .array a := by
  cases o <;> simp [type]

theorem type_eq_MAP {o : Object} : o.type = .MAP ↔ ∃ m, o = .map m := by
  cases o <;> simp [type]

theorem type_eq_STR {o : Object} : o.type = .STR ↔ ∃ s, o = .str s := by
  cases o <;> simp [type]

end Object

/-! ## The wire form -/

inductive Token : Type where
  | nil
  | boolean (b : Bool)
  | positiveInteger (n : UInt64)
  | negativeInteger (n : Int)
  | float (bits : UInt64)
  | str (s : Octets)
  | bin (s : Octets)
  | arrayHeader (size : Nat)
  | mapHeader (size : Nat)
  | ext (code : Int) (data : Octets)
deriving DecidableEq

mutual
def pack : Object → List Token
  | .nil => [.nil]
  | .boolean b => [.boolean b]
  | .positiveInteger n => [.positiveInteger n]
  | .negativeInteger n => [.negativeInteger n]
  | .float bits => [.float bits]
  | .str s => [.str s]
  | .bin s => [.bin s]
  | .array elements => .arrayHeader elements.length :: packAll elements
  | .map entries => .mapHeader entries.length :: packEntries entries
  | .ext code data => [.ext code data]
def packAll : List Object → List Token
  | [] => []
  | o :: os => pack o ++ packAll os
def packEntries : List (Object × Object) → List Token
  | [] => []
  | (k, v) :: es => pack k ++ (pack v ++ packEntries es)
end

/-- Pairs up the keys and values of a map. -/
def pairUp : List Object → List (Object × Object)
  | k :: v :: os => (k, v) :: pairUp os
  | _ => []

/-- Reads `count` values. Every value takes a token, so as much fuel as
there are tokens never runs out. -/
def unpackN : (fuel count : Nat) → List Token → Option (List Object × List Token)
  | _, 0, ts => some ([], ts)
  | 0, _ + 1, _ => none
  | _ + 1, _ + 1, [] => none
  | fuel + 1, count + 1, t :: ts => do
      let (o, rest) ← match t with
        | .nil => some (Object.nil, ts)
        | .boolean b => some (.boolean b, ts)
        | .positiveInteger n => some (.positiveInteger n, ts)
        | .negativeInteger n => some (.negativeInteger n, ts)
        | .float bits => some (.float bits, ts)
        | .str s => some (.str s, ts)
        | .bin s => some (.bin s, ts)
        | .ext code data => some (.ext code data, ts)
        | .arrayHeader size =>
            (unpackN fuel size ts).map fun (os, rest) => (.array os, rest)
        | .mapHeader size =>
            (unpackN fuel (2 * size) ts).map fun (os, rest) =>
              (.map (pairUp os), rest)
      let (os, rest) ← unpackN fuel count rest
      some (o :: os, rest)

/-- The next value of a buffer, and what follows it. -/
def unpack (ts : List Token) : Option (Object × List Token) :=
  match unpackN ts.length 1 ts with
  | some ([o], rest) => some (o, rest)
  | _ => none

/-! ## Reading back what was packed -/

/-- Lays the keys and values of a map out in the order they are packed. -/
def spread (entries : List (Object × Object)) : List Object :=
  entries.flatMap fun e => [e.1, e.2]

theorem pairUp_spread : ∀ entries : List (Object × Object),
    pairUp (spread entries) = entries
  | [] => rfl
  | (k, v) :: es => by
      have ih := pairUp_spread es
      simp only [spread] at ih
      simp [spread, pairUp, ih]

theorem pack_length_pos (o : Object) : 0 < (pack o).length := by
  cases o <;> simp [pack]

@[simp] theorem unpackN_zero (fuel : Nat) (ts : List Token) :
    unpackN fuel 0 ts = some ([], ts) := by
  cases fuel <;> rfl

mutual
/-- A packed value in front is the next value read; the rest of the count
is read from what follows it. -/
theorem unpackN_pack : ∀ (o : Object) (fuel count : Nat) (rest : List Token),
    (pack o).length ≤ fuel + 1 →
    unpackN (fuel + 1) (count + 1) (pack o ++ rest) =
      (unpackN fuel count rest).bind fun (os, r) => some (o :: os, r)
  | .nil, _, _, _, _ => by simp [pack, unpackN]
  | .boolean _, _, _, _, _ => by simp [pack, unpackN]
  | .positiveInteger _, _, _, _, _ => by simp [pack, unpackN]
  | .negativeInteger _, _, _, _, _ => by simp [pack, unpackN]
  | .float _, _, _, _, _ => by simp [pack, unpackN]
  | .str _, _, _, _, _ => by simp [pack, unpackN]
  | .bin _, _, _, _, _ => by simp [pack, unpackN]
  | .ext _ _, _, _, _, _ => by simp [pack, unpackN]
  | .array elements, fuel, count, rest, h => by
      have inner := unpackN_packAll elements fuel rest
        (by simpa [pack] using h)
      simp [pack, unpackN, inner]
  | .map entries, fuel, count, rest, h => by
      have inner := unpackN_packEntries entries fuel rest
        (by simpa [pack] using h)
      simp [pack, unpackN, inner, pairUp_spread]
theorem unpackN_packAll : ∀ (os : List Object) (fuel : Nat)
    (rest : List Token), (packAll os).length ≤ fuel →
    unpackN fuel os.length (packAll os ++ rest) = some (os, rest)
  | [], _, _, _ => by simp [packAll]
  | o :: os, fuel, rest, h => by
      have hpos := pack_length_pos o
      simp only [packAll, List.length_append] at h
      obtain ⟨fuel, rfl⟩ : ∃ f, fuel = f + 1 := ⟨fuel - 1, by omega⟩
      have tail := unpackN_packAll os fuel rest (by omega)
      rw [packAll, List.append_assoc, List.length_cons,
        unpackN_pack o fuel os.length _ (by omega), tail]
      rfl
theorem unpackN_packEntries : ∀ (es : List (Object × Object)) (fuel : Nat)
    (rest : List Token), (packEntries es).length ≤ fuel →
    unpackN fuel (2 * es.length) (packEntries es ++ rest) =
      some (spread es, rest)
  | [], _, _, _ => by simp [packEntries, spread]
  | (k, v) :: es, fuel, rest, h => by
      have hk := pack_length_pos k
      have hv := pack_length_pos v
      simp only [packEntries, List.length_append] at h
      obtain ⟨fuel, rfl⟩ : ∃ f, fuel = f + 2 := ⟨fuel - 2, by omega⟩
      have tail := unpackN_packEntries es fuel rest (by omega)
      have count : 2 * ((k, v) :: es).length = 2 * es.length + 1 + 1 := by
        simp [Nat.mul_add]
      rw [packEntries, List.append_assoc, List.append_assoc, count,
        unpackN_pack k (fuel + 1) _ _ (by omega),
        unpackN_pack v fuel _ _ (by omega), tail]
      simp [spread]
end

/-- **Round trip.** A packed value is read back as itself, and reading stops
right behind it. -/
theorem unpack_pack (o : Object) (rest : List Token) :
    unpack (pack o ++ rest) = some (o, rest) := by
  have hpos := pack_length_pos o
  obtain ⟨n, hn⟩ : ∃ n, (pack o ++ rest).length = n + 1 :=
    ⟨(pack o ++ rest).length - 1, by simp; omega⟩
  have hle : (pack o).length ≤ n + 1 := by
    rw [← hn]
    simp
  simp [unpack, hn, unpackN_pack o n 0 rest hle]

end Autobahn.MsgPack
