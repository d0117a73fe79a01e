import Mathlib.Data.List.Sort
import Mathlib.Data.List.Lex
import Mathlib.Data.Fintype.EquivFin
import Mathlib.Algebra.BigOperators.Group.List.Basic
import Mathlib.Algebra.Order.BigOperators.Group.List
import Mathlib.Algebra.Order.Ring.Nat

/-!
# JSON values

A JSON value is null, a Boolean, a number, a string, an array of values or an object, whose members
have distinct keys. Strings are sequences of UTF-16 code units, and a number is the text that it
has. Two values are the same up to the order of keys when sorting the members of all of their
objects makes them equal.

## Main definitions

* `Json`, `Json.fold`: JSON values, and recursion over them
* `Json.WellFormed`: the keys of every object are distinct
* `Json.sorted`: the value with the members of every object sorted
* `Json.nested`: the number of members of all objects
* `Json.grow`: the value with a member added to every object
* `JsonObject.Same`, `JsonObject.Flat`: the same object up to the order of keys, and an object with
  no other ones below it

## Main results

* `Json.lookup_eq_some_iff`: reading a list of members with distinct keys
* `Json.map_sortMembers`, `Json.lookup_sortMembers`: sorted members
* `Json.nested_sorted`, `Json.nested_grow`: sorting keeps the number of members, and growing changes
  it where there is an object
* `JsonObject.not_same_grow`: an object with others below it differs when it grows
-/

/-- There are code units, so that they can be written as numerals. -/
instance neZero_codeUnits : NeZero 65536 := ⟨by decide⟩

abbrev CodeUnit := Fin 65536

abbrev JsString := List CodeUnit

/-- The code units of a text that has no characters beyond the basic plane. -/
def units (text : String) : JsString := text.toList.map fun c => Fin.ofNat 65536 c.toNat

/-- The digits and the signs that numbers are written with. -/
def isNumeral (u : CodeUnit) : Bool :=
  48 ≤ u ∧ u ≤ 57 ∨ u ∈ [43, 45, 46, 101]

/-- The text of a number. -/
@[ext]
structure Numeral where
  text : JsString
  nonempty : text ≠ []
  numeral : ∀ u ∈ text, isNumeral u = true

inductive Json where
  | null
  | bool (b : Bool)
  | number (n : Numeral)
  | string (s : JsString)
  | array (elements : List Json)
  | object (members : List (JsString × Json))

namespace Json

/-! ## Recursion -/

/-- What a recursion does with a value whose parts are done. -/
structure Algebra (β : Type) where
  null : β
  bool : Bool → β
  number : Numeral → β
  string : JsString → β
  array : List β → β
  object : List (JsString × β) → β

section Fold

variable {β : Type} (A : Algebra β)

mutual

def fold : Json → β
  | null => A.null
  | bool b => A.bool b
  | number n => A.number n
  | string s => A.string s
  | array elements => A.array (foldElements elements)
  | object members => A.object (foldMembers members)

def foldElements : List Json → List β
  | [] => []
  | v :: elements => fold v :: foldElements elements

def foldMembers : List (JsString × Json) → List (JsString × β)
  | [] => []
  | (key, v) :: members => (key, fold v) :: foldMembers members

end

theorem fold_array (elements : List Json) :
    fold A (array elements) = A.array (elements.map (fold A)) := by
  have hmap : foldElements A elements = elements.map (fold A) := by
    induction elements with
    | nil => rfl
    | cons v elements ih => rw [foldElements, ih, List.map_cons]
  rw [fold, hmap]

theorem fold_object (members : List (JsString × Json)) :
    fold A (object members) = A.object (members.map fun m => (m.1, fold A m.2)) := by
  have hmap : foldMembers A members = members.map fun m => (m.1, fold A m.2) := by
    induction members with
    | nil => rfl
    | cons m members ih => rw [foldMembers, ih, List.map_cons]
  rw [fold, hmap]

end Fold

/-- The rule of induction: what holds of a value if it holds of its parts. -/
@[elab_as_elim, induction_eliminator]
theorem induct {motive : Json → Prop} (null : motive null) (bool : ∀ b, motive (bool b))
    (number : ∀ n, motive (number n)) (string : ∀ s, motive (string s))
    (array : ∀ elements, (∀ v ∈ elements, motive v) → motive (array elements))
    (object : ∀ members, (∀ m ∈ members, motive m.2) → motive (object members)) :
    ∀ v, motive v
  | .null => null
  | .bool b => bool b
  | .number n => number n
  | .string s => string s
  | .array elements => array elements fun v _ => induct null bool number string array object v
  | .object members =>
    object members fun (_, v) _ => induct null bool number string array object v
termination_by v => sizeOf v
decreasing_by
  · have hlt := List.sizeOf_lt_of_mem ‹_›
    simp_wf
    omega
  · have hlt := List.sizeOf_lt_of_mem ‹_›
    simp_wf
    simp only [Prod.mk.sizeOf_spec] at hlt
    omega

/-! ## Members -/

section Members

variable {β γ : Type}

/-- Reading a list of members with distinct keys. -/
theorem lookup_eq_some_iff {κ : Type} [BEq κ] [LawfulBEq κ] {members : List (κ × β)}
    (h : (members.map Prod.fst).Nodup) {key : κ} {v : β} :
    members.lookup key = some v ↔ (key, v) ∈ members := by
  induction members with
  | nil => simp
  | cons m members ih =>
    obtain ⟨hnotin, hrest⟩ := List.nodup_cons.mp h
    obtain ⟨key', v'⟩ := m
    rw [List.lookup_cons, List.mem_cons]
    by_cases hkey : key = key'
    · subst hkey
      rw [beq_self_eq_true]
      have hother : (key, v) ∉ members := fun hm =>
        hnotin (List.mem_map.mpr ⟨(key, v), hm, rfl⟩)
      constructor
      · rintro ⟨⟩
        exact .inl rfl
      · intro hmem
        obtain ⟨⟩ := hmem.resolve_right hother
        rfl
    · have hne : (key == key') = false := beq_false_of_ne hkey
      rw [hne]
      dsimp only
      rw [ih hrest, or_iff_right]
      rintro ⟨⟩
      exact hkey rfl

/-- Sort members by their keys. -/
def sortMembers (members : List (JsString × β)) : List (JsString × β) :=
  members.insertionSort fun m m' => m.1 ≤ m'.1

theorem sortMembers_perm (members : List (JsString × β)) : (sortMembers members).Perm members :=
  List.perm_insertionSort _ members

theorem mem_sortMembers {members : List (JsString × β)} {m : JsString × β} :
    m ∈ sortMembers members ↔ m ∈ members :=
  (sortMembers_perm members).mem_iff

/-- The keys of sorted members are the sorted keys. -/
theorem map_fst_sortMembers (members : List (JsString × β)) :
    (sortMembers members).map Prod.fst = (members.map Prod.fst).insertionSort (· ≤ ·) :=
  List.map_insertionSort _ _ _ _ fun _ _ _ _ => Iff.rfl

/-- Changing the values of the members is the same before and after sorting. -/
theorem map_sortMembers (f : β → γ) (members : List (JsString × β)) :
    (sortMembers members).map (fun m => (m.1, f m.2)) =
      sortMembers (members.map fun m => (m.1, f m.2)) :=
  List.map_insertionSort _ _ _ _ fun _ _ _ _ => Iff.rfl

/-- Sorting members keeps what is read. -/
theorem lookup_sortMembers {members : List (JsString × β)} (h : (members.map Prod.fst).Nodup)
    (key : JsString) : (sortMembers members).lookup key = members.lookup key := by
  have hsorted : ((sortMembers members).map Prod.fst).Nodup :=
    ((sortMembers_perm members).map Prod.fst).nodup_iff.mpr h
  ext v
  rw [lookup_eq_some_iff hsorted, lookup_eq_some_iff h, mem_sortMembers]

/-- Set a member, in the place of one with the same key or behind the others. -/
def setMember (key : JsString) (v : β) (members : List (JsString × β)) : List (JsString × β) :=
  if key ∈ members.map Prod.fst then members.map fun m => if m.1 = key then (key, v) else m
  else members ++ [(key, v)]

theorem nodup_setMember {key : JsString} {v : β} {members : List (JsString × β)}
    (h : (members.map Prod.fst).Nodup) : ((setMember key v members).map Prod.fst).Nodup := by
  unfold setMember
  split
  · have hkeys : (members.map fun m => if m.1 = key then (key, v) else m).map Prod.fst =
        members.map Prod.fst := by
      rw [List.map_map]
      refine List.map_congr_left fun m _ => ?_
      by_cases hm : m.1 = key <;> simp [hm]
    rw [hkeys]
    exact h
  · rename_i hnew
    rw [List.map_append, List.map_singleton, ← List.concat_eq_append, List.nodup_concat]
    exact ⟨hnew, h⟩

theorem mem_setMember {key : JsString} {v : β} {members : List (JsString × β)}
    {m : JsString × β} :
    m ∈ setMember key v members ↔ m = (key, v) ∨ m.1 ≠ key ∧ m ∈ members := by
  unfold setMember
  split
  · rename_i hkey
    obtain ⟨old, hold, rfl⟩ := List.mem_map.mp hkey
    constructor
    · intro hm
      obtain ⟨m', hm', rfl⟩ := List.mem_map.mp hm
      by_cases hne : m'.1 = old.1
      · rw [if_pos hne]
        exact .inl rfl
      · rw [if_neg hne]
        exact .inr ⟨hne, hm'⟩
    · rintro (rfl | ⟨hne, hm⟩)
      · exact List.mem_map.mpr ⟨old, hold, if_pos rfl⟩
      · exact List.mem_map.mpr ⟨m, hm, if_neg hne⟩
  · rename_i hnew
    rw [List.mem_append, List.mem_singleton, or_comm]
    refine or_congr_right ⟨fun hm => ⟨?_, hm⟩, And.right⟩
    rintro rfl
    exact hnew (List.mem_map_of_mem hm)

end Members

/-! ## Values up to the order of keys -/

/-- The keys of all objects are distinct. -/
inductive WellFormed : Json → Prop
  | null : WellFormed null
  | bool (b : Bool) : WellFormed (bool b)
  | number (n : Numeral) : WellFormed (number n)
  | string (s : JsString) : WellFormed (string s)
  | array {elements : List Json} : (∀ v ∈ elements, WellFormed v) → WellFormed (array elements)
  | object {members : List (JsString × Json)} : (members.map Prod.fst).Nodup →
      (∀ m ∈ members, WellFormed m.2) → WellFormed (object members)

/-- Sort the members of every object. -/
def sorted : Json → Json :=
  fold
    { null := null
      bool := bool
      number := number
      string := string
      array := array
      object := fun members => object (sortMembers members) }

/-- The number of members of all objects. -/
def nested : Json → ℕ :=
  fold
    { null := 0
      bool := fun _ => 0
      number := fun _ => 0
      string := fun _ => 0
      array := List.sum
      object := fun members => members.length + (members.map Prod.snd).sum }

/-- The value is an object or has one among its elements, at any depth. -/
def hasObject : Json → Bool :=
  fold
    { null := false
      bool := fun _ => false
      number := fun _ => false
      string := fun _ => false
      array := fun elements => elements.any id
      object := fun _ => true }

/-- The keys of all objects. -/
def keys : Json → List JsString :=
  fold
    { null := []
      bool := fun _ => []
      number := fun _ => []
      string := fun _ => []
      array := List.flatten
      object := fun members => members.flatMap fun m => m.1 :: m.2 }

/-- Add a member to every object. -/
def grow (key : JsString) : Json → Json :=
  fold
    { null := null
      bool := bool
      number := number
      string := string
      array := array
      object := fun members => object (members ++ [(key, null)]) }

theorem sorted_array (elements : List Json) :
    sorted (array elements) = array (elements.map sorted) :=
  fold_array _ elements

theorem sorted_object (members : List (JsString × Json)) :
    sorted (object members) = object (sortMembers (members.map fun m => (m.1, sorted m.2))) :=
  fold_object _ members

theorem nested_array (elements : List Json) :
    nested (array elements) = (elements.map nested).sum :=
  fold_array _ elements

theorem nested_object (members : List (JsString × Json)) :
    nested (object members) = members.length + (members.map fun m => nested m.2).sum := by
  rw [nested, fold_object]
  dsimp only
  rw [List.length_map, List.map_map]
  rfl

theorem hasObject_array (elements : List Json) :
    hasObject (array elements) = elements.any hasObject := by
  rw [hasObject, fold_array]
  dsimp only
  rw [List.any_map]
  rfl

theorem mem_keys_array {elements : List Json} {key : JsString} :
    key ∈ keys (array elements) ↔ ∃ v ∈ elements, key ∈ keys v := by
  rw [keys, fold_array, List.mem_flatten]
  simp

theorem mem_keys_object {members : List (JsString × Json)} {key : JsString} :
    key ∈ keys (object members) ↔ ∃ m ∈ members, key = m.1 ∨ key ∈ keys m.2 := by
  rw [keys, fold_object, List.mem_flatMap]
  simp

theorem grow_array (key : JsString) (elements : List Json) :
    grow key (array elements) = array (elements.map (grow key)) :=
  fold_array _ elements

theorem grow_object (key : JsString) (members : List (JsString × Json)) :
    grow key (object members) = object (members.map (fun m => (m.1, grow key m.2)) ++ [(key, null)]) :=
  fold_object _ members

/-- Sorting keeps the number of members. -/
theorem nested_sorted (v : Json) : nested (sorted v) = nested v := by
  induction v with
  | null => rfl
  | bool b => rfl
  | number n => rfl
  | string s => rfl
  | array elements ih =>
    rw [sorted_array, nested_array, nested_array, List.map_map]
    exact congrArg List.sum (List.map_congr_left ih)
  | object members ih =>
    have hperm := sortMembers_perm (members.map fun m => (m.1, sorted m.2))
    rw [sorted_object, nested_object, nested_object, hperm.length_eq, List.length_map,
      (hperm.map fun m => nested m.2).sum_eq, List.map_map]
    exact congrArg (members.length + ·) (congrArg List.sum (List.map_congr_left ih))

/-- Growing adds members where there is an object. -/
theorem nested_grow (key : JsString) (v : Json) :
    nested v ≤ nested (grow key v) ∧ (hasObject v = true → nested v < nested (grow key v)) := by
  induction v with
  | null => exact ⟨le_rfl, fun h => by cases h⟩
  | bool b => exact ⟨le_rfl, fun h => by cases h⟩
  | number n => exact ⟨le_rfl, fun h => by cases h⟩
  | string s => exact ⟨le_rfl, fun h => by cases h⟩
  | array elements ih =>
    rw [grow_array, nested_array, nested_array, List.map_map, hasObject_array]
    have hle : ∀ v ∈ elements, nested v ≤ nested (grow key v) := fun v hv => (ih v hv).1
    refine ⟨List.sum_le_sum hle, ?_⟩
    intro hany
    obtain ⟨v, hv, hobject⟩ := List.any_eq_true.mp hany
    exact List.sum_lt_sum _ _ hle ⟨v, hv, (ih v hv).2 hobject⟩
  | object members ih =>
    have hle : (members.map fun m => nested m.2).sum ≤
        (members.map fun m => nested (grow key m.2)).sum :=
      List.sum_le_sum fun m hm => (ih m hm).1
    have hlt : nested (object members) < nested (grow key (object members)) := by
      rw [grow_object, nested_object, nested_object, List.length_append, List.map_append,
        List.sum_append, List.length_map, List.map_map]
      simp only [Function.comp_def, List.length_singleton]
      omega
    exact ⟨hlt.le, fun _ => hlt⟩

/-- A value stays well formed when it grows by a new key. -/
theorem WellFormed.grow {v : Json} (h : v.WellFormed) {key : JsString} (hnew : key ∉ keys v) :
    (v.grow key).WellFormed := by
  induction h with
  | null => exact .null
  | bool b => exact .bool b
  | number n => exact .number n
  | string s => exact .string s
  | array _ ih =>
    rw [grow_array]
    refine .array ?_
    intro w hw
    obtain ⟨v, hv, rfl⟩ := List.mem_map.mp hw
    exact ih v hv fun hkey => hnew (mem_keys_array.mpr ⟨v, hv, hkey⟩)
  | object hnodup _ ih =>
    rw [grow_object]
    refine .object ?_ ?_
    · rw [List.map_append, List.map_map, List.nodup_append]
      refine ⟨hnodup, List.nodup_singleton _, ?_⟩
      rintro _ hold _ hadded rfl
      obtain ⟨m, hm, heq⟩ := List.mem_map.mp hold
      rw [List.map_singleton, List.mem_singleton] at hadded
      exact hnew (mem_keys_object.mpr ⟨m, hm, .inl (hadded.symm.trans heq.symm)⟩)
    · intro w hw
      rcases List.mem_append.mp hw with hold | hadded
      · obtain ⟨m, hm, rfl⟩ := List.mem_map.mp hold
        exact ih m hm fun hkey => hnew (mem_keys_object.mpr ⟨m, hm, .inr hkey⟩)
      · rw [List.mem_singleton] at hadded
        rw [hadded]
        exact .null

/-- There is a key that no object has. -/
theorem exists_notMem_keys (v : Json) : ∃ key, key ∉ keys v := by
  obtain ⟨key, hkey⟩ := Infinite.exists_notMem_finset (keys v).toFinset
  exact ⟨key, fun hmem => hkey (List.mem_toFinset.mpr hmem)⟩

end Json

/-! ## Objects -/

structure JsonObject where
  members : List (JsString × Json)
  wellFormed : (Json.object members).WellFormed

namespace JsonObject

/-- The same object up to the order of keys, at every depth. -/
def Same (a b : JsonObject) : Prop :=
  Json.sorted (.object a.members) = Json.sorted (.object b.members)

/-- The object has no other objects below it, at any depth. -/
def Flat (a : JsonObject) : Prop := ∀ m ∈ a.members, Json.hasObject m.2 = false

instance (a : JsonObject) : Decidable a.Flat := inferInstanceAs (Decidable (∀ m ∈ a.members, _))

theorem nodup (a : JsonObject) : (a.members.map Prod.fst).Nodup := by
  obtain ⟨members, hwellFormed⟩ := a
  cases hwellFormed with
  | object hnodup _ => exact hnodup

/-- The object without members. -/
def empty : JsonObject := ⟨[], .object List.nodup_nil (List.forall_mem_nil _)⟩

def set (a : JsonObject) (key : JsString) (v : Json) (hv : v.WellFormed) : JsonObject where
  members := Json.setMember key v a.members
  wellFormed := by
    obtain ⟨members, hwellFormed⟩ := a
    cases hwellFormed with
    | object hnodup hvalues =>
      refine .object (Json.nodup_setMember hnodup) ?_
      intro m hm
      rcases Json.mem_setMember.mp hm with rfl | ⟨-, hold⟩
      · exact hv
      · exact hvalues m hold

theorem same_of_sortMembers_eq {a b : JsonObject}
    (h : Json.sortMembers a.members = Json.sortMembers b.members) : a.Same b := by
  rw [Same, Json.sorted_object, Json.sorted_object, ← Json.map_sortMembers, h, Json.map_sortMembers]

/-- Add a member to every object below an object. -/
def grow (key : JsString) (a : JsonObject) (h : key ∉ Json.keys (.object a.members)) : JsonObject where
  members := a.members.map fun m => (m.1, Json.grow key m.2)
  wellFormed := by
    obtain ⟨members, hwellFormed⟩ := a
    cases hwellFormed with
    | object hnodup hvalues =>
      refine .object ?_ ?_
      · rw [List.map_map]
        exact hnodup
      · intro m' hm'
        obtain ⟨m, hm, rfl⟩ := List.mem_map.mp hm'
        exact (hvalues m hm).grow fun hkey => h (Json.mem_keys_object.mpr ⟨m, hm, .inr hkey⟩)

/-- An object that has another one below it is not the same when it grows. -/
theorem not_same_grow {key : JsString} {a : JsonObject} (h : key ∉ Json.keys (.object a.members))
    (hflat : ¬ a.Flat) : ¬ a.Same (a.grow key h) := by
  intro hsame
  have hcount := congrArg Json.nested hsame
  rw [Json.nested_sorted, Json.nested_sorted, Json.nested_object, Json.nested_object, grow,
    List.length_map, List.map_map, Nat.add_left_cancel_iff] at hcount
  have hle : ∀ m ∈ a.members, Json.nested m.2 ≤ Json.nested (Json.grow key m.2) :=
    fun m _ => (Json.nested_grow key m.2).1
  have hobject : ∃ m ∈ a.members, Json.hasObject m.2 = true := by
    by_contra hnone
    exact hflat fun m hm => Bool.eq_false_iff.mpr fun hm' => hnone ⟨m, hm, hm'⟩
  obtain ⟨m, hm, hm'⟩ := hobject
  exact (List.sum_lt_sum _ _ hle ⟨m, hm, (Json.nested_grow key m.2).2 hm'⟩).ne hcount

end JsonObject
