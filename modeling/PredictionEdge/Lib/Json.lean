import PredictionEdge.Lib.StableSort
import PredictionEdge.Lib.Wire

/-!
# JSON values

The values of a JSON library whose objects keep their fields in the order of their keys. A
value can be written as a self-delimiting text and read back, each field after its key.
-/

namespace PredictionEdge.Lib

inductive Json where
  | null
  | bool (value : Bool)
  | number (value : Int)
  /-- A number that is not an integer, by the bits of its floating point form. -/
  | float (bits : Nat)
  | string (value : String)
  | array (values : List Json)
  | object (fields : List (String × Json))

namespace Json

/-- An object with these fields: they are kept in the order of their keys. -/
def ofFields (fields : List (String × Json)) : Json := .object (sortOn Prod.fst fields)

/-! ## Reading into a value -/

/-- The value under a key. -/
def field (key : String) : Json → Option Json
  | object fields => fields.lookup key
  | _ => none

def asText : Json → Option String
  | string s => some s
  | _ => none

def asBool : Json → Option Bool
  | bool b => some b
  | _ => none

def asArray : Json → Option (List Json)
  | array values => some values
  | _ => none

def asObject : Json → Option (List (String × Json))
  | object fields => some fields
  | _ => none

/-! ## Writing a value -/

theorem toNat_sub_toNat_neg (i : Int) : some ((i.toNat : Int) - ((-i).toNat : Int)) = some i := by
  rw [Option.some.injEq]
  omega

/-- A number, whatever its sign. -/
def int : Wire Int :=
  (Wire.nat.pair Wire.nat).within (fun i => (i.toNat, (-i).toNat)) (fun p => some (p.1 - p.2))
    toNat_sub_toNat_neg

def char : Wire Char :=
  Wire.nat.within Char.toNat (fun n => some (Char.ofNat n)) (by intro c; simp [Char.ofNat_toNat])

def text : Wire String :=
  char.list.within String.toList (fun l => some (String.ofList l)) (by intro s; simp)

mutual

def put : Json → List UInt8
  | null => Wire.nat.put 0
  | bool b => Wire.nat.put (if b then 2 else 1)
  | number n => Wire.nat.put 3 ++ int.put n
  | float bits => Wire.nat.put 4 ++ Wire.nat.put bits
  | string s => Wire.nat.put 5 ++ text.put s
  | array values => Wire.nat.put 6 ++ putValues values
  | object fields => Wire.nat.put 7 ++ putFields fields

def putValues : List Json → List UInt8
  | [] => Wire.nat.put 0
  | v :: values => Wire.nat.put 1 ++ (v.put ++ putValues values)

def putFields : List (String × Json) → List UInt8
  | [] => Wire.nat.put 0
  | (key, v) :: fields => Wire.nat.put 1 ++ (text.put key ++ (v.put ++ putFields fields))

end

mutual

/-- How deep a reader has to go. -/
def depth : Json → Nat
  | array values => depthValues values + 1
  | object fields => depthFields fields + 1
  | _ => 1

def depthValues : List Json → Nat
  | [] => 1
  | v :: values => max v.depth (depthValues values) + 1

def depthFields : List (String × Json) → Nat
  | [] => 1
  | (_, v) :: fields => max v.depth (depthFields fields) + 1

end

mutual

/-- Read a value of at most some depth. -/
def get : Nat → List UInt8 → Option (Json × List UInt8)
  | 0, _ => none
  | fuel + 1, bytes =>
    (Wire.nat.get bytes).bind fun (tag, rest) =>
      match tag with
      | 0 => some (null, rest)
      | 1 => some (bool false, rest)
      | 2 => some (bool true, rest)
      | 3 => (int.get rest).map fun (n, rest) => (number n, rest)
      | 4 => (Wire.nat.get rest).map fun (bits, rest) => (float bits, rest)
      | 5 => (text.get rest).map fun (s, rest) => (string s, rest)
      | 6 => (getValues fuel rest).map fun (values, rest) => (array values, rest)
      | 7 => (getFields fuel rest).map fun (fields, rest) => (object fields, rest)
      | _ => none

def getValues : Nat → List UInt8 → Option (List Json × List UInt8)
  | 0, _ => none
  | fuel + 1, bytes =>
    (Wire.nat.get bytes).bind fun (tag, rest) =>
      if tag = 0 then some ([], rest)
      else (get fuel rest).bind fun (v, rest) =>
        (getValues fuel rest).map fun (values, rest) => (v :: values, rest)

def getFields : Nat → List UInt8 → Option (List (String × Json) × List UInt8)
  | 0, _ => none
  | fuel + 1, bytes =>
    (Wire.nat.get bytes).bind fun (tag, rest) =>
      if tag = 0 then some ([], rest)
      else (text.get rest).bind fun (key, rest) =>
        (get fuel rest).bind fun (v, rest) =>
          (getFields fuel rest).map fun (fields, rest) => ((key, v) :: fields, rest)

end

mutual

theorem get_put : ∀ (v : Json) (rest : List UInt8) {fuel : Nat}, v.depth ≤ fuel →
    get fuel (v.put ++ rest) = some (v, rest)
  | v, rest, 0, h => by
    cases v <;> simp [depth] at h
  | null, rest, fuel + 1, _ => by simp [put, get, Wire.nat.get_put]
  | bool b, rest, fuel + 1, _ => by cases b <;> simp [put, get, Wire.nat.get_put]
  | number n, rest, fuel + 1, _ => by
    simp [put, get, List.append_assoc, Wire.nat.get_put, int.get_put]
  | float bits, rest, fuel + 1, _ => by
    simp [put, get, List.append_assoc, Wire.nat.get_put]
  | string s, rest, fuel + 1, _ => by
    simp [put, get, List.append_assoc, Wire.nat.get_put, text.get_put]
  | array values, rest, fuel + 1, h => by
    simp only [depth] at h
    simp [put, get, List.append_assoc, Wire.nat.get_put, get_putValues values rest (Nat.le_of_succ_le_succ h)]
  | object fields, rest, fuel + 1, h => by
    simp only [depth] at h
    simp [put, get, List.append_assoc, Wire.nat.get_put, get_putFields fields rest (Nat.le_of_succ_le_succ h)]

theorem get_putValues : ∀ (values : List Json) (rest : List UInt8) {fuel : Nat},
    depthValues values ≤ fuel → getValues fuel (putValues values ++ rest) = some (values, rest)
  | values, rest, 0, h => by
    cases values <;> simp [depthValues] at h
  | [], rest, fuel + 1, _ => by simp [putValues, getValues, Wire.nat.get_put]
  | v :: values, rest, fuel + 1, h => by
    simp only [depthValues] at h
    simp [putValues, getValues, List.append_assoc, Wire.nat.get_put, get_put v _ (by omega : v.depth ≤ fuel),
      get_putValues values _ (by omega : depthValues values ≤ fuel)]

theorem get_putFields : ∀ (fields : List (String × Json)) (rest : List UInt8) {fuel : Nat},
    depthFields fields ≤ fuel → getFields fuel (putFields fields ++ rest) = some (fields, rest)
  | fields, rest, 0, h => by
    cases fields <;> simp [depthFields] at h
  | [], rest, fuel + 1, _ => by simp [putFields, getFields, Wire.nat.get_put]
  | (key, v) :: fields, rest, fuel + 1, h => by
    simp only [depthFields] at h
    simp [putFields, getFields, List.append_assoc, Wire.nat.get_put, text.get_put,
      get_put v _ (by omega : v.depth ≤ fuel), get_putFields fields _ (by omega : depthFields fields ≤ fuel)]

end

/-- A value, behind its depth. -/
def wire : Wire Json where
  put v := Wire.nat.put v.depth ++ v.put
  get bytes := (Wire.nat.get bytes).bind fun (fuel, rest) => get fuel rest
  get_put := by
    intro v rest
    rw [List.append_assoc, Wire.nat.get_put, Option.bind_some]
    exact get_put v rest (Nat.le_refl _)

theorem wire_put_injective {a b : Json} (h : wire.put a = wire.put b) : a = b := by
  have ha := wire.get_put a []
  rw [h, wire.get_put b []] at ha
  exact (congrArg Prod.fst (Option.some.inj ha)).symm

/-- Values are told apart by what they are written as. -/
instance : DecidableEq Json := fun a b =>
  decidable_of_iff (wire.put a = wire.put b) ⟨wire_put_injective, congrArg wire.put⟩

end Json

end PredictionEdge.Lib
