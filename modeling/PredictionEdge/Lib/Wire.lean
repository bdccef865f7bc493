import Mathlib.Data.Nat.Digits.Lemmas
import Mathlib.Data.List.TakeWhile

/-!
# Self-delimiting encodings

A value is written as bytes and read back from the beginning of an input, which leaves
what follows. The encodings are built up from numbers by pairs, lists and changes of type,
and each carries its own law: what is read back is what was written, and nothing of what
follows is touched.
-/

namespace PredictionEdge.Lib

/-- A self-delimiting encoding of a type. -/
structure Wire (α : Type) where
  put : α → List UInt8
  get : List UInt8 → Option (α × List UInt8)
  get_put : ∀ a rest, get (put a ++ rest) = some (a, rest)

namespace Wire

variable {α β : Type}

/-- What an encoding writes tells the value, whatever follows. -/
theorem put_append_inj (w : Wire α) {a b : α} {x y : List UInt8} (h : w.put a ++ x = w.put b ++ y) :
    a = b ∧ x = y := by
  have ha := w.get_put a x
  rw [h, w.get_put b y] at ha
  simp only [Option.some.injEq, Prod.mk.injEq] at ha
  exact ⟨ha.1.symm, ha.2.symm⟩

/-- The digits of a number in base 255, each raised by one, and a zero at the end. -/
def putNat (n : Nat) : List UInt8 := (Nat.digits 255 n).map (fun d => UInt8.ofNat (d + 1)) ++ [0]

def getNat (bytes : List UInt8) : Option (Nat × List UInt8) :=
  match bytes.dropWhile (· ≠ 0) with
  | [] => none
  | _ :: rest => some (Nat.ofDigits 255 ((bytes.takeWhile (· ≠ 0)).map fun b => b.toNat - 1), rest)

theorem digit_toNat {n d : Nat} (h : d ∈ Nat.digits 255 n) : (UInt8.ofNat (d + 1)).toNat = d + 1 := by
  have := Nat.digits_lt_base (by decide) h
  rw [UInt8.toNat_ofNat']
  omega

theorem getNat_putNat (n : Nat) (rest : List UInt8) : getNat (putNat n ++ rest) = some (n, rest) := by
  have hne : ∀ b ∈ (Nat.digits 255 n).map (fun d => UInt8.ofNat (d + 1)), decide (b ≠ 0) = true := by
    intro b hb
    obtain ⟨d, hd, rfl⟩ := List.mem_map.mp hb
    have := digit_toNat hd
    simp only [ne_eq, decide_eq_true_eq]
    intro hzero
    rw [hzero] at this
    simp at this
  have hback : ((Nat.digits 255 n).map fun d => UInt8.ofNat (d + 1)).map (fun b => b.toNat - 1) =
      Nat.digits 255 n := by
    rw [List.map_map]
    conv_rhs => rw [← List.map_id (Nat.digits 255 n)]
    refine List.map_congr_left fun d hd => ?_
    show (UInt8.ofNat (d + 1)).toNat - 1 = d
    rw [digit_toNat hd]
    omega
  unfold getNat putNat
  rw [List.append_assoc, List.dropWhile_append_of_pos hne, List.takeWhile_append_of_pos hne]
  simp only [List.cons_append, List.nil_append, ne_eq, not_true_eq_false, decide_false,
    Bool.false_eq_true, not_false_eq_true, List.dropWhile_cons_of_neg, List.takeWhile_cons_of_neg,
    List.append_nil]
  rw [hback, Nat.ofDigits_digits]

def nat : Wire Nat := ⟨putNat, getNat, getNat_putNat⟩

/-- One encoding after another. -/
def pair (v : Wire α) (w : Wire β) : Wire (α × β) where
  put p := v.put p.1 ++ w.put p.2
  get bytes := (v.get bytes).bind fun (a, rest) => (w.get rest).map fun (b, rest) => ((a, b), rest)
  get_put := by
    rintro ⟨a, b⟩ rest
    simp only [List.append_assoc, v.get_put, Option.bind_some, w.get_put, Option.map_some]

/-- A type whose values are some of the values of another one. -/
def within (w : Wire α) (down : β → α) (up : α → Option β) (h : ∀ b, up (down b) = some b) :
    Wire β where
  put b := w.put (down b)
  get bytes := (w.get bytes).bind fun (a, rest) => (up a).map (·, rest)
  get_put := by
    intro b rest
    simp only [w.get_put, Option.bind_some, h, Option.map_some]

/-- As many values as a number says. -/
def getMany (w : Wire α) : Nat → List UInt8 → Option (List α × List UInt8)
  | 0, bytes => some ([], bytes)
  | n + 1, bytes =>
    (w.get bytes).bind fun (a, rest) => (w.getMany n rest).map fun (l, rest) => (a :: l, rest)

theorem getMany_flatMap (w : Wire α) (l : List α) (rest : List UInt8) :
    w.getMany l.length (l.flatMap w.put ++ rest) = some (l, rest) := by
  induction l with
  | nil => rfl
  | cons a l ih =>
    simp only [List.flatMap_cons, List.length_cons, getMany, List.append_assoc, w.get_put,
      Option.bind_some, ih, Option.map_some]

/-- A list, behind its length. -/
def list (w : Wire α) : Wire (List α) where
  put l := nat.put l.length ++ l.flatMap w.put
  get bytes := (nat.get bytes).bind fun (n, rest) => w.getMany n rest
  get_put := by
    intro l rest
    simp only [List.append_assoc, nat.get_put, Option.bind_some, getMany_flatMap]

/-! ## As a text -/

/-- The bytes of a value, one character for each. -/
def toText (w : Wire α) (a : α) : String := String.ofList ((w.put a).map fun b => Char.ofNat b.toNat)

def ofText (w : Wire α) (s : String) : Option α :=
  (w.get (s.toList.map fun c => UInt8.ofNat c.toNat)).bind fun (a, rest) =>
    if rest = [] then some a else none

theorem byte_char (b : UInt8) : UInt8.ofNat (Char.ofNat b.toNat).toNat = b := by
  have hb := b.toNat_lt
  have hvalid : b.toNat.isValidChar := Or.inl (by omega)
  rw [Char.ofNat, dif_pos hvalid]
  show UInt8.ofNat b.toNat = b
  exact UInt8.ofNat_toNat

theorem ofText_toText (w : Wire α) (a : α) : w.ofText (w.toText a) = some a := by
  have hback : (w.toText a).toList.map (fun c => UInt8.ofNat c.toNat) = w.put a ++ [] := by
    rw [toText, String.toList_ofList, List.map_map, List.append_nil]
    conv_rhs => rw [← List.map_id (w.put a)]
    exact List.map_congr_left fun b _ => byte_char b
  rw [ofText, hback, w.get_put]
  rfl

end Wire

end PredictionEdge.Lib
