import Mathlib.Tactic.IntervalCases
import Stellara.Lib.Json

/-!
# The texts of JSON values

A value is written without spaces, strings in quotes with their special characters escaped. The
members of an object are written in the order of a list of keys, which is the same for the objects
at every depth, and members with other keys are left out. An object inherits one property that is
written, which is an object itself.

## Main definitions

* `stringToCodePoints`, `quoteJSONString`: the quoted text of a string
* `Json.stringify K v`: the text of `v` with the members that have keys in `K`

## Main results

* `quoteJSONString_append_inj`: a string can be read back from its quoted text
* `Json.stringify_append_inj`: so can a value that has no objects
* `Json.stringify_sorted`: the order of members does not matter
* `Json.stringify_grow`: members with other keys do not matter
* `Json.stringify_own`, `Json.sortMembers_eq_of_stringify`: an object whose members are all written,
  and reading them back
-/

/-! ## Strings -/

def IsHighSurrogate (u : CodeUnit) : Prop := 0xD800 ≤ u ∧ u ≤ 0xDBFF

def IsLowSurrogate (u : CodeUnit) : Prop := 0xDC00 ≤ u ∧ u ≤ 0xDFFF

instance (u : CodeUnit) : Decidable (IsHighSurrogate u) := inferInstanceAs (Decidable (_ ∧ _))

instance (u : CodeUnit) : Decidable (IsLowSurrogate u) := inferInstanceAs (Decidable (_ ∧ _))

/-- A code point of a string. A surrogate that is not one of a pair stands for itself. -/
inductive CodePoint where
  | unit (u : CodeUnit)
  | pair (high low : CodeUnit) (h : IsHighSurrogate high)

def CodePoint.units : CodePoint → JsString
  | unit u => [u]
  | pair high low _ => [high, low]

def stringToCodePoints : JsString → List CodePoint
  | [] => []
  | [u] => [.unit u]
  | u :: v :: rest =>
    if h : IsHighSurrogate u ∧ IsLowSurrogate v then .pair u v h.1 :: stringToCodePoints rest
    else .unit u :: stringToCodePoints (v :: rest)

/-- The characters with an escape of their own, and the letters of these. -/
def shortEscapes : List (CodeUnit × CodeUnit) :=
  [(8, 98), (9, 116), (10, 110), (12, 102), (13, 114), (34, 34), (92, 92)]

def hexDigit (n : ℕ) : CodeUnit := Fin.ofNat 65536 (if n < 10 then 48 + n else 87 + n)

def unicodeEscape (u : CodeUnit) : JsString :=
  [92, 117, hexDigit (u.val / 4096), hexDigit (u.val / 256 % 16), hexDigit (u.val / 16 % 16),
    hexDigit (u.val % 16)]

def quoteUnit (u : CodeUnit) : JsString :=
  match shortEscapes.lookup u with
  | some letter => [92, letter]
  | none => if u < 32 ∨ IsHighSurrogate u ∨ IsLowSurrogate u then unicodeEscape u else [u]

def CodePoint.quote : CodePoint → JsString
  | unit u => quoteUnit u
  | pair high low _ => [high, low]

def quoteJSONString (s : JsString) : JsString :=
  34 :: (stringToCodePoints s).flatMap CodePoint.quote ++ [34]

theorem flatMap_units_stringToCodePoints (s : JsString) :
    (stringToCodePoints s).flatMap CodePoint.units = s := by
  induction s using stringToCodePoints.induct with
  | case1 => rfl
  | case2 u => rfl
  | case3 u v rest h ih =>
    rw [stringToCodePoints, dif_pos h, List.flatMap_cons, ih]
    rfl
  | case4 u v rest h ih =>
    rw [stringToCodePoints, dif_neg h, List.flatMap_cons, ih]
    rfl

/-- The value of a digit. -/
def hexValue (u : CodeUnit) : ℕ := if u.val < 58 then u.val - 48 else u.val - 87

theorem hexValue_hexDigit {n : ℕ} (h : n < 16) : hexValue (hexDigit n) = n := by
  interval_cases n <;> rfl

/-- Read four digits back. -/
def readHex : JsString → Option (JsString × JsString)
  | a :: b :: c :: d :: rest =>
    some ([Fin.ofNat 65536
      (hexValue a * 4096 + hexValue b * 256 + hexValue c * 16 + hexValue d)], rest)
  | _ => none

/-- Read an escape back from what is behind its backslash. -/
def readEscape : JsString → Option (JsString × JsString)
  | [] => none
  | letter :: rest =>
    match shortEscapes.find? fun e => e.2 = letter with
    | some e => some ([e.1], rest)
    | none => readHex rest

/-- Read a code point back, with what is behind it. -/
def readCodePoint : JsString → Option (JsString × JsString)
  | [] => none
  | u :: rest =>
    if u = 92 then readEscape rest
    else if IsHighSurrogate u then rest.head?.map fun v => ([u, v], rest.tail)
    else some ([u], rest)

theorem readEscape_short {u letter : CodeUnit} (h : shortEscapes.lookup u = some letter)
    (rest : JsString) : readEscape (letter :: rest) = some ([u], rest) := by
  have hkeys : (shortEscapes.map Prod.fst).Nodup := by decide
  have hfind : (shortEscapes.all fun e =>
    (shortEscapes.find? fun e' => e'.2 = e.2) = some e) = true := by decide
  have hmem := (Json.lookup_eq_some_iff hkeys).mp h
  rw [readEscape, of_decide_eq_true (List.all_eq_true.mp hfind (u, letter) hmem)]

theorem readEscape_unicode (u : CodeUnit) (rest : JsString) :
    readEscape (117 :: hexDigit (u.val / 4096) :: hexDigit (u.val / 256 % 16) ::
      hexDigit (u.val / 16 % 16) :: hexDigit (u.val % 16) :: rest) = some ([u], rest) := by
  have hfind : (shortEscapes.find? fun e => e.2 = (117 : CodeUnit)) = none := by decide
  have hu := u.isLt
  rw [readEscape, hfind]
  dsimp only
  rw [readHex, hexValue_hexDigit (by omega), hexValue_hexDigit (by omega), hexValue_hexDigit (by omega),
    hexValue_hexDigit (by omega)]
  have hvalue : u.val / 4096 * 4096 + u.val / 256 % 16 * 256 + u.val / 16 % 16 * 16 +
    u.val % 16 = u.val := by omega
  rw [hvalue, Fin.ofNat_val_eq_self]

/-- A code unit is quoted by an escape, or as it is where it is neither a quote nor a backslash nor
a surrogate. -/
theorem quoteUnit_cases (u : CodeUnit) :
    (∃ letter, shortEscapes.lookup u = some letter ∧ quoteUnit u = [92, letter]) ∨
      quoteUnit u = unicodeEscape u ∨
      quoteUnit u = [u] ∧ u ≠ 34 ∧ u ≠ 92 ∧ ¬ IsHighSurrogate u := by
  cases hlookup : shortEscapes.lookup u with
  | some letter => exact .inl ⟨letter, rfl, by rw [quoteUnit, hlookup]⟩
  | none =>
    refine .inr ?_
    rw [quoteUnit, hlookup]
    dsimp only
    split
    · exact .inl rfl
    · rename_i hplain
      refine .inr ⟨rfl, ?_, ?_, fun h => hplain (.inr (.inl h))⟩
      · rintro rfl
        cases hlookup
      · rintro rfl
        cases hlookup

theorem readCodePoint_quote (c : CodePoint) (rest : JsString) :
    readCodePoint (c.quote ++ rest) = some (c.units, rest) := by
  cases c with
  | unit u =>
    rw [CodePoint.quote]
    rcases quoteUnit_cases u with ⟨letter, hlookup, hquote⟩ | hquote | ⟨hquote, -, hne, hhigh⟩
    · rw [hquote]
      exact readEscape_short hlookup rest
    · rw [hquote]
      exact readEscape_unicode u rest
    · rw [hquote, List.singleton_append, readCodePoint, if_neg hne, if_neg hhigh]
      rfl
  | pair high low h =>
    have hne : high ≠ 92 := by
      rintro rfl
      exact absurd h (by decide)
    rw [CodePoint.quote, List.cons_append, List.singleton_append, readCodePoint, if_neg hne,
      if_pos h]
    rfl

/-- What is quoted does not begin with a quote. -/
theorem quote_append_ne (c : CodePoint) (rest rest' : JsString) :
    c.quote ++ rest ≠ 34 :: rest' := by
  cases c with
  | unit u =>
    rw [CodePoint.quote]
    rcases quoteUnit_cases u with ⟨letter, -, hquote⟩ | hquote | ⟨hquote, hne, -, -⟩
    · rw [hquote]
      simp
    · rw [hquote]
      simp [unicodeEscape]
    · rw [hquote]
      simp [hne]
  | pair high low h =>
    rintro ⟨⟩
    exact absurd h (by decide)

theorem flatMap_quote_inj {cs cs' : List CodePoint} {rest rest' : JsString}
    (h : cs.flatMap CodePoint.quote ++ 34 :: rest = cs'.flatMap CodePoint.quote ++ 34 :: rest') :
    cs.flatMap CodePoint.units = cs'.flatMap CodePoint.units ∧ rest = rest' := by
  induction cs generalizing cs' with
  | nil =>
    cases cs' with
    | nil => exact ⟨rfl, (List.cons.inj h).2⟩
    | cons c' cs' =>
      rw [List.flatMap_cons, List.append_assoc] at h
      exact absurd h.symm (quote_append_ne _ _ _)
  | cons c cs ih =>
    rw [List.flatMap_cons, List.append_assoc] at h
    cases cs' with
    | nil => exact absurd h (quote_append_ne _ _ _)
    | cons c' cs' =>
      rw [List.flatMap_cons, List.append_assoc] at h
      have hread := congrArg readCodePoint h
      rw [readCodePoint_quote, readCodePoint_quote, Option.some.injEq, Prod.mk.injEq] at hread
      obtain ⟨hunits, hrest⟩ := ih hread.2
      rw [List.flatMap_cons, List.flatMap_cons, hread.1, hunits]
      exact ⟨rfl, hrest⟩

/-- A string can be read back from its quoted text. -/
theorem quoteJSONString_append_inj {s s' rest rest' : JsString}
    (h : quoteJSONString s ++ rest = quoteJSONString s' ++ rest') : s = s' ∧ rest = rest' := by
  rw [quoteJSONString, quoteJSONString, List.append_assoc, List.append_assoc, List.cons_append,
    List.cons_append] at h
  obtain ⟨hunits, hrest⟩ := flatMap_quote_inj (List.cons.inj h).2
  rw [flatMap_units_stringToCodePoints, flatMap_units_stringToCodePoints] at hunits
  exact ⟨hunits, hrest⟩

/-! ## Separated texts -/

/-- What is behind a number does not go on with it. -/
def Ended (rest : JsString) : Prop := ∀ u ∈ rest.head?, isNumeral u = false

/-- Texts with commas between them. -/
def separated : List JsString → JsString
  | [] => []
  | text :: texts => text ++ texts.flatMap fun text => 44 :: text

section Separated

variable {α : Type} {f f' : α → JsString} {l l' : List α} {c : CodeUnit} {rest rest' : JsString}

theorem ended_cons (hc : isNumeral c = false) : Ended (c :: rest) := by
  rintro u ⟨⟩
  exact hc

/-- Behind an entry there is a comma or the end of the list. -/
theorem ended_flatMap (hc : isNumeral c = false) :
    Ended ((l.flatMap fun x => 44 :: f x) ++ c :: rest) := by
  cases l with
  | nil => exact ended_cons hc
  | cons x l => exact ended_cons (by decide)

/-- Entries can be read back from what is behind the first one if each can. -/
theorem flatMap_append_inj (hc : isNumeral c = false) (hcomma : c ≠ 44)
    (hread : ∀ x ∈ l, ∀ y r r', Ended r → Ended r' → f x ++ r = f' y ++ r' → x = y ∧ r = r')
    (h : (l.flatMap fun x => 44 :: f x) ++ c :: rest =
      (l'.flatMap fun x => 44 :: f' x) ++ c :: rest') : l = l' ∧ rest = rest' := by
  induction l generalizing l' with
  | nil =>
    cases l' with
    | nil => exact ⟨rfl, (List.cons.inj h).2⟩
    | cons y l' => exact absurd (List.cons.inj h).1 hcomma
  | cons x l ih =>
    cases l' with
    | nil => exact absurd (List.cons.inj h).1.symm hcomma
    | cons y l' =>
      rw [List.flatMap_cons, List.flatMap_cons, List.append_assoc, List.append_assoc,
        List.cons_append, List.cons_append] at h
      obtain ⟨rfl, htail⟩ := hread x List.mem_cons_self y _ _ (ended_flatMap hc)
        (ended_flatMap hc) (List.cons.inj h).2
      obtain ⟨rfl, hrest⟩ := ih (fun x hx => hread x (List.mem_cons_of_mem _ hx)) htail
      exact ⟨rfl, hrest⟩

/-- Entries can be read back from their separated texts if each can and none begins like the end of
the list. -/
theorem separated_append_inj (hc : isNumeral c = false) (hcomma : c ≠ 44)
    (hread : ∀ x ∈ l, ∀ y r r', Ended r → Ended r' → f x ++ r = f' y ++ r' → x = y ∧ r = r')
    (hstart : ∀ x r r', f x ++ r ≠ c :: r') (hstart' : ∀ x r r', f' x ++ r ≠ c :: r')
    (h : separated (l.map f) ++ c :: rest = separated (l'.map f') ++ c :: rest') :
    l = l' ∧ rest = rest' := by
  cases l with
  | nil =>
    cases l' with
    | nil => exact ⟨rfl, (List.cons.inj h).2⟩
    | cons y l' =>
      rw [List.map_cons, separated, List.append_assoc] at h
      exact absurd h.symm (hstart' _ _ _)
  | cons x l =>
    rw [List.map_cons, separated, List.append_assoc, List.flatMap_map] at h
    cases l' with
    | nil => exact absurd h (hstart _ _ _)
    | cons y l' =>
      rw [List.map_cons, separated, List.append_assoc, List.flatMap_map] at h
      obtain ⟨rfl, htail⟩ := hread x List.mem_cons_self y _ _ (ended_flatMap hc)
        (ended_flatMap hc) h
      obtain ⟨rfl, hrest⟩ := flatMap_append_inj hc hcomma
        (fun x hx => hread x (List.mem_cons_of_mem _ hx)) htail
      exact ⟨rfl, hrest⟩

end Separated

/-! ## Numbers -/

/-- A number can be read back. -/
theorem numeral_append_inj {n n' : Numeral} {rest rest' : JsString} (hrest : Ended rest)
    (hrest' : Ended rest') (h : n.text ++ rest = n'.text ++ rest') : n = n' ∧ rest = rest' := by
  have htake : ∀ (n : Numeral) {rest : JsString}, Ended rest →
      (n.text ++ rest).takeWhile isNumeral = n.text := by
    intro n rest hended
    rw [List.takeWhile_append_of_pos n.numeral]
    cases rest with
    | nil => simp
    | cons u rest =>
      rw [List.takeWhile_cons_of_neg (by simp [hended u rfl]), List.append_nil]
  have htext : n.text = n'.text := by rw [← htake n hrest, h, htake n' hrest']
  rw [htext] at h
  exact ⟨Numeral.ext htext, List.append_cancel_left h⟩

namespace Json

/-! ## Values -/

/-- The key of the prototype of an object. -/
def protoKey : JsString := units "__proto__"

/-- The text of the prototype of an object, which has itself no prototype. Its other properties are
functions, which have no texts. -/
def inherited (key : JsString) : Option JsString :=
  if key = protoKey then some (123 :: quoteJSONString protoKey ++ 58 :: units "null" ++ [125])
  else none

/-- The text of the property of an object. -/
def getProperty (key : JsString) (members : List (JsString × JsString)) : Option JsString :=
  (members.lookup key).or (inherited key)

def member (key text : JsString) : JsString := quoteJSONString key ++ 58 :: text

/-- The texts of values, given those of their parts. -/
def serializer (K : List JsString) : Algebra JsString where
  null := units "null"
  bool b := units (if b then "true" else "false")
  number n := n.text
  string s := quoteJSONString s
  array texts := 91 :: separated texts ++ [93]
  object members :=
    123 :: separated (K.filterMap fun key => (getProperty key members).map (member key)) ++ [125]

/-- `JSON.stringify` with a list of distinct keys. -/
def stringify (K : List JsString) : Json → JsString := fold (serializer K)

theorem stringify_array (K : List JsString) (elements : List Json) :
    stringify K (array elements) = 91 :: separated (elements.map (stringify K)) ++ [93] :=
  fold_array _ elements

theorem stringify_object (K : List JsString) (members : List (JsString × Json)) :
    stringify K (object members) = 123 :: separated (K.filterMap fun key =>
      (getProperty key (members.map fun m => (m.1, stringify K m.2))).map (member key)) ++ [125] :=
  fold_object _ members

/-- What the text of a value begins with, where 0 stands for a numeral. -/
def lead : Json → ℕ
  | null => 110
  | bool b => if b then 116 else 102
  | number _ => 0
  | string _ => 34
  | array _ => 91
  | object _ => 123

def leadOf (u : CodeUnit) : ℕ := if isNumeral u then 0 else u

theorem stringify_eq_cons (K : List JsString) (v : Json) :
    ∃ u text, stringify K v = u :: text ∧ leadOf u = lead v := by
  cases v with
  | null => exact ⟨110, units "ull", rfl, rfl⟩
  | bool b =>
    cases b with
    | true => exact ⟨116, units "rue", rfl, rfl⟩
    | false => exact ⟨102, units "alse", rfl, rfl⟩
  | number n =>
    obtain ⟨u, text, htext⟩ := List.exists_cons_of_ne_nil n.nonempty
    have hu : isNumeral u = true := n.numeral u (by rw [htext]; exact List.mem_cons_self)
    exact ⟨u, text, htext, by rw [leadOf, if_pos hu]; rfl⟩
  | string s => exact ⟨34, _, rfl, rfl⟩
  | array elements => exact ⟨91, _, stringify_array K elements, rfl⟩
  | object members => exact ⟨123, _, stringify_object K members, rfl⟩

/-- Values with the same text begin alike. -/
theorem lead_eq_of_stringify {v w : Json} {K K' : List JsString} {rest rest' : JsString}
    (h : stringify K v ++ rest = stringify K' w ++ rest') : lead v = lead w := by
  obtain ⟨u, text, hv, hu⟩ := stringify_eq_cons K v
  obtain ⟨u', text', hw, hu'⟩ := stringify_eq_cons K' w
  rw [hv, hw, List.cons_append, List.cons_append] at h
  rw [← hu, ← hu', (List.cons.inj h).1]

/-- No text begins with the end of an array. -/
theorem stringify_append_ne (K : List JsString) (v : Json) (rest rest' : JsString) :
    stringify K v ++ rest ≠ 93 :: rest' := by
  obtain ⟨u, text, hv, hu⟩ := stringify_eq_cons K v
  rw [hv]
  intro h
  obtain ⟨rfl, -⟩ := List.cons.inj h
  have hlead : lead v ≠ 93 := by
    cases v with
    | bool b => cases b <;> decide
    | _ => simp [lead]
  exact hlead hu.symm

/-- A value that has no objects can be read back from its text. -/
theorem stringify_append_inj {v : Json} (hv : v.hasObject = false) {w : Json} {K K' : List JsString}
    {rest rest' : JsString} (hrest : Ended rest) (hrest' : Ended rest')
    (h : stringify K v ++ rest = stringify K' w ++ rest') : v = w ∧ rest = rest' := by
  -- the first character tells of which kind `w` is, and what is behind `v` generalizes to what is
  -- behind an element of an array
  induction v generalizing w rest rest' with
  | null =>
    have hlead := lead_eq_of_stringify h
    cases w with
    | null => exact ⟨rfl, List.append_cancel_left h⟩
    | bool b => cases b <;> cases hlead
    | _ => cases hlead
  | bool b =>
    have hlead := lead_eq_of_stringify h
    cases w with
    | bool b' =>
      have hb : b = b' := by
        revert hlead
        cases b <;> cases b' <;> decide
      subst hb
      exact ⟨rfl, List.append_cancel_left h⟩
    | _ => cases b <;> cases hlead
  | number n =>
    have hlead := lead_eq_of_stringify h
    cases w with
    | number n' =>
      obtain ⟨rfl, hback⟩ := numeral_append_inj hrest hrest' h
      exact ⟨rfl, hback⟩
    | bool b => cases b <;> cases hlead
    | _ => cases hlead
  | string s =>
    have hlead := lead_eq_of_stringify h
    cases w with
    | string s' =>
      obtain ⟨rfl, hback⟩ := quoteJSONString_append_inj h
      exact ⟨rfl, hback⟩
    | bool b => cases b <;> cases hlead
    | _ => cases hlead
  | array elements ih =>
    have hlead := lead_eq_of_stringify h
    cases w with
    | array elements' =>
      rw [hasObject_array, List.any_eq_false] at hv
      rw [stringify_array, stringify_array, List.append_assoc, List.append_assoc, List.cons_append,
        List.cons_append] at h
      have hread : ∀ x ∈ elements, ∀ y r r', Ended r → Ended r' →
          stringify K x ++ r = stringify K' y ++ r' → x = y ∧ r = r' := by
        intro x hx y r r' hr hr' heq
        exact ih x hx (Bool.eq_false_iff.mpr (hv x hx)) hr hr' heq
      obtain ⟨rfl, hback⟩ := separated_append_inj (by decide) (by decide) hread
        (stringify_append_ne K) (stringify_append_ne K') (List.cons.inj h).2
      exact ⟨rfl, hback⟩
    | bool b => cases b <;> cases hlead
    | _ => cases hlead
  | object members ih =>
    -- `hv` excludes objects
    cases hv

/-- The order of the members does not matter. -/
theorem stringify_sorted (K : List JsString) {v : Json} (h : v.WellFormed) :
    stringify K (sorted v) = stringify K v := by
  induction h with
  | null => rfl
  | bool b => rfl
  | number n => rfl
  | string s => rfl
  | array _ ih =>
    rw [sorted_array, stringify_array, stringify_array, List.map_map]
    congr 3
    exact List.map_congr_left ih
  | @object members hnodup _ ih =>
    have htexts : (members.map fun m => (m.1, sorted m.2)).map (fun m => (m.1, stringify K m.2)) =
        members.map fun m => (m.1, stringify K m.2) := by
      rw [List.map_map]
      exact List.map_congr_left fun m hm => congrArg (Prod.mk m.1) (ih m hm)
    have hkeys : ((members.map fun m => (m.1, stringify K m.2)).map Prod.fst).Nodup := by
      rw [List.map_map]
      exact hnodup
    rw [sorted_object, stringify_object, stringify_object, map_sortMembers, htexts]
    simp only [getProperty, lookup_sortMembers hkeys]

/-- Members with other keys do not matter. -/
theorem stringify_grow {K : List JsString} {key : JsString} (hkey : key ∉ K) (v : Json) :
    stringify K (grow key v) = stringify K v := by
  induction v with
  | null => rfl
  | bool b => rfl
  | number n => rfl
  | string s => rfl
  | array elements ih =>
    rw [grow_array, stringify_array, stringify_array, List.map_map]
    congr 3
    exact List.map_congr_left ih
  | object members ih =>
    have htexts : (members.map fun m => (m.1, grow key m.2)).map (fun m => (m.1, stringify K m.2)) =
        members.map fun m => (m.1, stringify K m.2) := by
      rw [List.map_map]
      exact List.map_congr_left fun m hm => congrArg (Prod.mk m.1) (ih m hm)
    rw [grow_object, stringify_object, stringify_object, List.map_append, htexts]
    congr 3
    refine List.filterMap_congr ?_
    intro key' hkey'
    have hne : (key' == key) = false := beq_false_of_ne fun h => hkey (h ▸ hkey')
    rw [getProperty, getProperty, List.lookup_append, List.map_singleton, List.lookup_cons, hne]
    simp

/-! ## Objects whose members are all written -/

/-- The keys of the members, in order. -/
def sortedKeys (members : List (JsString × Json)) : List JsString :=
  (members.map Prod.fst).insertionSort (· ≤ ·)

theorem stringify_own {members : List (JsString × Json)} (h : (members.map Prod.fst).Nodup) :
    stringify (sortedKeys members) (object members) =
      123 :: separated ((sortMembers members).map fun m =>
        member m.1 (stringify (sortedKeys members) m.2)) ++ [125] := by
  generalize hK : stringify (sortedKeys members) = text
  have hkeys : ((members.map fun m => (m.1, text m.2)).map Prod.fst).Nodup := by
    rw [List.map_map]
    exact h
  rw [← hK, stringify_object, hK, sortedKeys, ← map_fst_sortMembers, List.filterMap_map]
  congr 3
  -- every key is one of a member
  have hall : ∀ m ∈ sortMembers members,
      ((fun key => (getProperty key (members.map fun m => (m.1, text m.2))).map (member key)) ∘
        Prod.fst) m = some (member m.1 (text m.2)) := by
    intro m hm
    have hmem : (m.1, text m.2) ∈ members.map fun m => (m.1, text m.2) :=
      List.mem_map_of_mem (mem_sortMembers.mp hm)
    rw [Function.comp_apply, getProperty, (lookup_eq_some_iff hkeys).mpr hmem]
    rfl
  rw [List.filterMap_congr hall, List.filterMap_eq_map']

/-- The members of an object that has no objects below it can be read back from its text. -/
theorem sortMembers_eq_of_stringify {members members' : List (JsString × Json)}
    (h : (members.map Prod.fst).Nodup) (h' : (members'.map Prod.fst).Nodup)
    (hflat : ∀ m ∈ members, hasObject m.2 = false)
    (heq : stringify (sortedKeys members) (object members) =
      stringify (sortedKeys members') (object members')) :
    sortMembers members = sortMembers members' := by
  rw [stringify_own h, stringify_own h'] at heq
  have hstart : ∀ (K : List JsString) (m : JsString × Json) r r',
      member m.1 (stringify K m.2) ++ r ≠ 125 :: r' := by
    intro K m r r' h
    exact absurd (List.cons.inj h).1 (by decide)
  refine (separated_append_inj (by decide) (by decide) ?_ (hstart _) (hstart _)
    (List.cons.inj heq).2).1
  intro m hm m' r r' hr hr' htext
  rw [member, member, List.append_assoc, List.append_assoc, List.cons_append, List.cons_append]
    at htext
  obtain ⟨hkey, hback⟩ := quoteJSONString_append_inj htext
  obtain ⟨hvalue, hrest⟩ := stringify_append_inj (hflat m (mem_sortMembers.mp hm)) hr hr'
    (List.cons.inj hback).2
  exact ⟨Prod.ext hkey hvalue, hrest⟩

end Json
