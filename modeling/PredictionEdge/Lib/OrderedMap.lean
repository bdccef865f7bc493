import Mathlib.Data.Finmap

/-!
# Ordered maps built by a fold

A map that is filled by one pass over a list, each element updating the entry of its
own key, holds under a key what the elements of that key alone would have left there.
-/

namespace PredictionEdge.Lib

variable {α K V : Type} {cmp : K → K → Ordering} [Std.TransCmp cmp]

/-- Update the entry of each element's key, in the order of the list. -/
def foldInto (cmp : K → K → Ordering) [Std.TransCmp cmp] (key : α → K)
    (push : α → Option V → V) (l : List α)
    (m : Std.ExtTreeMap K V cmp) : Std.ExtTreeMap K V cmp :=
  l.foldl (fun m x => m.alter (key x) fun o => some (push x o)) m

theorem getElem?_foldInto [DecidableEq K] [Std.LawfulEqCmp cmp] (key : α → K)
    (push : α → Option V → V) (k : K) :
    ∀ (l : List α) (m : Std.ExtTreeMap K V cmp),
    (foldInto cmp key push l m)[k]? =
      (l.filter fun x => key x = k).foldl (fun o x => some (push x o)) m[k]?
  | [], _ => rfl
  | x :: l, m => by
    rw [foldInto, List.foldl_cons]
    have ih := getElem?_foldInto key push k l
      (m.alter (key x) fun o => some (push x o))
    rw [foldInto] at ih
    rw [ih, Std.ExtTreeMap.getElem?_alter]
    by_cases h : key x = k
    · subst h
      simp
    · have hne : cmp (key x) k ≠ .eq := fun he => h (Std.LawfulEqCmp.eq_of_compare he)
      simp [h, hne]

/-- The values of a map, in the order of their keys. -/
def intoValues (m : Std.ExtTreeMap K V cmp) : List V := m.toList.map Prod.snd

theorem mem_intoValues [Std.LawfulEqCmp cmp] {m : Std.ExtTreeMap K V cmp} {v : V} :
    v ∈ intoValues m ↔ ∃ k : K, m[k]? = some v := by
  simp only [intoValues, List.mem_map, Prod.exists, exists_eq_right,
    Std.ExtTreeMap.mem_toList_iff_getElem?_eq_some]

/-- Values of different keys differ in what tells their keys apart. -/
theorem pairwise_intoValues [Std.LawfulEqCmp cmp] {R : V → V → Prop}
    {m : Std.ExtTreeMap K V cmp}
    (h : ∀ (k k' : K) (v v' : V), k ≠ k' → m[k]? = some v → m[k']? = some v' → R v v') :
    (intoValues m).Pairwise R := by
  rw [intoValues, List.pairwise_map]
  refine (Std.ExtTreeMap.distinct_keys_toList (t := m)).imp_of_mem ?_
  rintro ⟨k, v⟩ ⟨k', v'⟩ hv hv' hne
  refine h k k' v v' (fun he => hne ?_) (Std.ExtTreeMap.mem_toList_iff_getElem?_eq_some.mp hv)
    (Std.ExtTreeMap.mem_toList_iff_getElem?_eq_some.mp hv')
  rw [he]
  exact Std.ReflCmp.compare_self

theorem intoValues_filterMap {W : Type} (m : Std.ExtTreeMap K V cmp) (f : K → V → Option W) :
    intoValues (m.filterMap f) = m.toList.filterMap fun p => f p.1 p.2 := by
  rw [intoValues, Std.ExtTreeMap.toList_filterMap, List.map_filterMap]
  congr 1
  funext p
  cases f p.1 p.2 <;> rfl

/-! ## Other keys are left alone -/

section

variable [Std.LawfulEqCmp cmp] {m : Std.ExtTreeMap K V cmp} {k k' : K}

omit [Std.TransCmp cmp] in
theorem cmp_ne_eq (h : k ≠ k') : cmp k k' ≠ .eq :=
  fun he => h (Std.LawfulEqCmp.eq_of_compare he)

theorem getElem?_insert_of_ne {v : V} (h : k ≠ k') : (m.insert k v)[k']? = m[k']? := by
  rw [Std.ExtTreeMap.getElem?_insert, if_neg (cmp_ne_eq h)]

theorem getElem?_erase_of_ne (h : k ≠ k') : (m.erase k)[k']? = m[k']? := by
  rw [Std.ExtTreeMap.getElem?_erase, if_neg (cmp_ne_eq h)]

theorem contains_insert_of_ne {s : Std.ExtTreeSet K cmp} (h : k ≠ k') :
    (s.insert k).contains k' = s.contains k' := by
  have hne : cmp k k' ≠ .eq := cmp_ne_eq h
  simp [Std.ExtTreeSet.contains_insert, hne]

end

/-! ## Pairs as keys -/

/-- By the first component, then by the second. -/
def comparePair {A B : Type} [Ord A] [Ord B] : A × B → A × B → Ordering :=
  compareLex (compareOn Prod.fst) (compareOn Prod.snd)

section

variable {A B : Type} [Ord A] [Ord B]

instance [Std.TransOrd A] [Std.TransOrd B] : Std.TransCmp (comparePair (A := A) (B := B)) :=
  inferInstanceAs (Std.TransCmp (compareLex (compareOn Prod.fst) (compareOn Prod.snd)))

instance [Std.TransOrd A] [Std.TransOrd B] [Std.LawfulEqOrd A] [Std.LawfulEqOrd B] :
    Std.LawfulEqCmp (comparePair (A := A) (B := B)) where
  compare_self {a} := Std.ReflCmp.compare_self
  eq_of_compare {a b} h := by
    simp only [comparePair, compareLex, compareOn, Ordering.then_eq_eq,
      Std.LawfulEqOrd.compare_eq_iff_eq] at h
    exact Prod.ext h.1 h.2

end

end PredictionEdge.Lib
