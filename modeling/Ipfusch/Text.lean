import Mathlib.Data.List.DropRight
import Mathlib.Data.List.Forall2
import Mathlib.Data.List.Infix

/-!
# Words and numerals

The text functions of a standard library, over lists of characters : trimming, the suffix of a
word, an unsigned decimal numeral and a list with separators.

`parseUnsigned_eq_ok` : the number parser reads the numerals whose value is below its bound, and
nothing else. `isSuffixOf?_append` : a suffix that shares no character with the front of a word
is a suffix of the rest.
-/

namespace Text

/-! ## White space -/

/-- The Unicode property `White_Space`. -/
def isWhitespace (c : Char) : Bool :=
  (9 ≤ c.toNat && c.toNat ≤ 13) || c.toNat == 0x20 || c.toNat == 0x85 || c.toNat == 0xA0 ||
    c.toNat == 0x1680 || (0x2000 ≤ c.toNat && c.toNat ≤ 0x200A) || c.toNat == 0x2028 ||
    c.toNat == 0x2029 || c.toNat == 0x202F || c.toNat == 0x205F || c.toNat == 0x3000

/-- The text without the white space at its two ends. -/
def trim (s : List Char) : List Char :=
  (s.dropWhile isWhitespace).rdropWhile isWhitespace

theorem rdropWhile_eq_self {s : List Char} (h : ∀ c ∈ s, isWhitespace c = false) :
    s.rdropWhile isWhitespace = s :=
  List.rdropWhile_eq_self_iff.mpr fun hs => by simp [h _ (List.getLast_mem hs)]

theorem rdropWhile_append {s post : List Char} (hpost : ∀ c ∈ post, isWhitespace c) :
    (s ++ post).rdropWhile isWhitespace = s.rdropWhile isWhitespace := by
  rw [List.rdropWhile, List.reverse_append, List.dropWhile_append_of_pos
    fun c hc => hpost c (List.mem_reverse.mp hc), List.rdropWhile]

/-- White space around a word is trimmed. -/
theorem trim_append {pre s post : List Char} (hpre : ∀ c ∈ pre, isWhitespace c)
    (hs : ∀ c ∈ s, isWhitespace c = false) (hpost : ∀ c ∈ post, isWhitespace c) :
    trim (pre ++ s ++ post) = s := by
  rw [trim, List.append_assoc, List.dropWhile_append_of_pos hpre]
  cases s with
  | nil =>
    have hall : (post.dropWhile isWhitespace) = [] := List.dropWhile_eq_nil_iff.mpr hpost
    simp [hall]
  | cons c rest =>
    have hc := hs c List.mem_cons_self
    rw [List.cons_append, List.dropWhile_cons_of_neg (by simp [hc]), ← List.cons_append,
      rdropWhile_append hpost, rdropWhile_eq_self hs]

/-- A word is its own trimmed form. -/
theorem trim_eq_self {s : List Char} (hs : ∀ c ∈ s, isWhitespace c = false) : trim s = s := by
  simpa using @trim_append [] s [] (by simp) hs (by simp)

/-! ## Suffixes -/

/-- A suffix that shares no character with the front of a word is a suffix of the rest. -/
theorem isSuffixOf?_append {t body s : List Char} (h : ∀ c ∈ body, c ∉ t) :
    List.isSuffixOf? t (body ++ s) = (List.isSuffixOf? t s).map (body ++ ·) := by
  ext v
  simp only [List.isSuffixOf?_eq_some_iff_append_eq, Option.map_eq_some_iff]
  constructor
  · intro hv
    obtain ⟨w, hvw, hsw⟩ | ⟨w, hbody, htw⟩ := List.append_eq_append_iff.mp hv
    · -- the front of the word would end in a part of the suffix
      have hw : w = [] := List.eq_nil_iff_forall_not_mem.mpr fun c hc =>
        h c (by simp [hvw, hc]) (by simp [hsw, hc])
      subst hw
      exact ⟨[], by simpa using hsw, by simpa using hvw⟩
    · exact ⟨w, htw.symm, hbody.symm⟩
  · rintro ⟨w, hw, rfl⟩
    rw [List.append_assoc, hw]

/-! ## Numerals -/

/-- `ParseIntError` -/
inductive ParseIntError
  | empty
  | invalidDigit
  | posOverflow
  deriving DecidableEq, Repr

/-- The text of a `ParseIntError`. -/
def ParseIntError.toString : ParseIntError → String
  | .empty => "cannot parse integer from empty string"
  | .invalidDigit => "invalid digit found in string"
  | .posOverflow => "number too large to fit in target type"

/-- The value of `acc` followed by digits. A character that is no digit is found before the
overflow it would lead to. -/
def parseDigits (bound : ℕ) : ℕ → List Char → Except ParseIntError ℕ
  | acc, [] => .ok acc
  | acc, c :: rest =>
    if c.isDigit then
      let result := 10 * acc + (c.toNat - '0'.toNat)
      if result < bound then parseDigits bound result rest else .error .posOverflow
    else .error .invalidDigit

/-- An unsigned integer below `bound` in decimal, with an optional sign `+`. -/
def parseUnsigned (bound : ℕ) : List Char → Except ParseIntError ℕ
  | [] => .error .empty
  | c :: rest =>
    if (c = '+' ∨ c = '-') ∧ rest = [] then .error .invalidDigit
    else if c = '+' then parseDigits bound 0 rest
    else parseDigits bound 0 (c :: rest)

/-- A decimal numeral : an optional `+`, then digits of value `n`. -/
def IsNumeral (s : List Char) (n : ℕ) : Prop :=
  ∃ digits, (s = digits ∨ s = '+' :: digits) ∧ digits ≠ [] ∧ (∀ c ∈ digits, c.isDigit) ∧
    Nat.ofDigitChars 10 digits 0 = n

theorem le_ofDigitChars (acc : ℕ) (digits : List Char) :
    acc ≤ Nat.ofDigitChars 10 digits acc := by
  induction digits generalizing acc with
  | nil => simp
  | cons c rest ih =>
    rw [Nat.ofDigitChars_cons]
    exact le_trans (by omega) (ih _)

/-- The digit loop reads digits whose value is below the bound. -/
theorem parseDigits_eq_ok {bound acc n : ℕ} (hacc : acc < bound) {digits : List Char} :
    parseDigits bound acc digits = .ok n ↔
      (∀ c ∈ digits, c.isDigit) ∧ Nat.ofDigitChars 10 digits acc = n ∧ n < bound := by
  induction digits generalizing acc with
  | nil =>
    simp only [parseDigits, Except.ok.injEq, Nat.ofDigitChars_nil]
    constructor
    · rintro rfl
      exact ⟨by simp, rfl, hacc⟩
    · exact fun h => h.2.1
  | cons c rest ih =>
    rw [parseDigits, Nat.ofDigitChars_cons, List.forall_mem_cons]
    by_cases hc : c.isDigit = true
    · rw [if_pos hc]
      by_cases hlt : 10 * acc + (c.toNat - '0'.toNat) < bound
      · rw [if_pos hlt, ih hlt]
        simp [hc]
      · rw [if_neg hlt]
        have hle := le_ofDigitChars (10 * acc + (c.toNat - '0'.toNat)) rest
        constructor
        · intro h
          cases h
        · rintro ⟨-, rfl, hn⟩
          omega
    · rw [if_neg hc]
      constructor
      · intro h
        cases h
      · exact fun h => absurd h.1.1 hc

/-- The number parser reads the numerals of a value below its bound. -/
theorem parseUnsigned_eq_ok {bound n : ℕ} (hbound : 0 < bound) {s : List Char} :
    parseUnsigned bound s = .ok n ↔ IsNumeral s n ∧ n < bound := by
  cases s with
  | nil => simp [parseUnsigned, IsNumeral]
  | cons c rest =>
    have hplus : ('+').isDigit = false := rfl
    have hminus : ('-').isDigit = false := rfl
    rw [parseUnsigned]
    split
    · next h =>
      obtain ⟨rfl | rfl, rfl⟩ := h <;> simp [IsNumeral, hplus, hminus]
    · next h =>
      split
      · next hc =>
        subst hc
        have hrest : rest ≠ [] := by simpa using h
        rw [parseDigits_eq_ok hbound, ← and_assoc]
        refine and_congr_left fun _ =>
          ⟨fun ⟨hdigits, hn⟩ => ⟨rest, .inr rfl, hrest, hdigits, hn⟩, ?_⟩
        rintro ⟨digits, rfl | hs, -, hdigits, hn⟩
        · simp [hplus] at hdigits
        · obtain ⟨-, rfl⟩ := List.cons.inj hs
          exact ⟨hdigits, hn⟩
      · next hc =>
        rw [parseDigits_eq_ok hbound, ← and_assoc]
        refine and_congr_left fun _ =>
          ⟨fun ⟨hdigits, hn⟩ => ⟨c :: rest, .inl rfl, by simp, hdigits, hn⟩, ?_⟩
        rintro ⟨digits, rfl | hs, -, hdigits, hn⟩
        · exact ⟨hdigits, hn⟩
        · exact absurd (List.cons.inj hs).1 hc

/-- A number is printed as a numeral of its value. -/
theorem isNumeral_toString (n : ℕ) : IsNumeral (toString n).toList n := by
  rw [Nat.toString_eq_repr, Nat.toList_repr]
  exact ⟨_, .inl rfl, Nat.toDigits_ne_nil,
    fun c hc => Nat.isDigit_of_mem_toDigits (by decide) (by decide) hc,
    Nat.ofDigitChars_ten_toDigits⟩

/-- The characters of a numeral. -/
theorem IsNumeral.mem {s : List Char} {n : ℕ} (h : IsNumeral s n) {c : Char} (hc : c ∈ s) :
    c.isDigit ∨ c = '+' := by
  obtain ⟨digits, rfl | rfl, -, hdigits, -⟩ := h
  · exact .inl (hdigits c hc)
  · obtain rfl | hmem := List.mem_cons.mp hc
    · exact .inr rfl
    · exact .inl (hdigits c hmem)

theorem IsNumeral.ne_nil {s : List Char} {n : ℕ} (h : IsNumeral s n) : s ≠ [] := by
  obtain ⟨digits, rfl | rfl, hne, -, -⟩ := h
  · exact hne
  · exact List.cons_ne_nil _ _

theorem toNat_of_isDigit {c : Char} (h : c.isDigit = true) : 48 ≤ c.toNat ∧ c.toNat ≤ 57 := by
  simp only [Char.isDigit, Bool.and_eq_true, decide_eq_true_eq] at h
  exact ⟨h.1, h.2⟩

/-- A numeral has no white space. -/
theorem IsNumeral.not_isWhitespace {s : List Char} {n : ℕ} (h : IsNumeral s n) {c : Char}
    (hc : c ∈ s) : isWhitespace c = false := by
  obtain hdigit | rfl := h.mem hc
  · have hc := toNat_of_isDigit hdigit
    simp only [isWhitespace, Bool.or_eq_false_iff, Bool.and_eq_false_iff, decide_eq_false_iff_not,
      beq_eq_false_iff_ne]
    omega
  · decide

/-- A numeral is its own lower case. -/
theorem IsNumeral.map_toLower {s : List Char} {n : ℕ} (h : IsNumeral s n) :
    s.map Char.toLower = s := by
  refine (List.map_congr_left fun c hc => ?_).trans (List.map_id s)
  obtain hdigit | rfl := h.mem hc
  · have hc := toNat_of_isDigit hdigit
    refine dif_neg fun hupper => ?_
    have h65 : 65 ≤ c.toNat := hupper.1
    omega
  · decide

/-! ## Lists with separators -/

section Parts

variable {ε α : Type} (sep : Char) (readPart : String → Except ε α)

/-- What each part between separators reads as, or the first error. -/
def readParts (input : String) : Except ε (List α) :=
  ((input.toList.splitOn sep).map String.ofList).foldlM
    (fun out part => do return out ++ [← readPart part]) []

theorem foldlM_push {β : Type} (f : β → Except ε α) (l : List β) (acc : List α) :
    l.foldlM (fun out b => do return out ++ [← f b]) acc = (acc ++ ·) <$> l.mapM f := by
  induction l generalizing acc with
  | nil => simp
  | cons b rest ih =>
    rw [List.foldlM_cons, List.mapM_cons]
    cases f b with
    | error e => rfl
    | ok a =>
      change List.foldlM _ (acc ++ [a]) rest = (acc ++ ·) <$> ((a :: ·) <$> rest.mapM f)
      rw [ih, ← comp_map]
      congr 1
      funext out
      simp

theorem readParts_eq_mapM (input : String) :
    readParts sep readPart input =
      (input.toList.splitOn sep).mapM fun part => readPart (String.ofList part) := by
  rw [readParts, foldlM_push, List.mapM_map]
  simp [Function.comp_def]

/-- The values are those of the parts, in order. -/
theorem readParts_eq_ok {input : String} {out : List α} :
    readParts sep readPart input = .ok out ↔
      List.Forall₂ (fun part a => readPart (String.ofList part) = .ok a)
        (input.toList.splitOn sep) out := by
  rw [readParts_eq_mapM]
  induction input.toList.splitOn sep generalizing out with
  | nil =>
    rw [List.mapM_nil, List.forall₂_nil_left_iff]
    exact ⟨fun h => (Except.ok.inj h).symm, fun h => congrArg Except.ok h.symm⟩
  | cons part rest ih =>
    rw [List.mapM_cons, List.forall₂_cons_left_iff]
    cases readPart (String.ofList part) with
    | error e =>
      constructor
      · intro h
        cases h
      · rintro ⟨a, rest', h, -, -⟩
        cases h
    | ok a =>
      cases hrest : rest.mapM fun part => readPart (String.ofList part) with
      | error e =>
        constructor
        · intro h
          cases h
        · rintro ⟨a', rest', -, h, -⟩
          rw [← ih, hrest] at h
          cases h
      | ok values =>
        constructor
        · intro h
          exact ⟨a, values, rfl, ih.mp hrest, (Except.ok.inj h).symm⟩
        · rintro ⟨a', rest', ha, h, rfl⟩
          rw [← ih, hrest] at h
          rw [← Except.ok.inj ha, ← Except.ok.inj h]
          rfl

/-- Two texts with a separator between them read as the one, then the other. -/
theorem readParts_append (a b : String) :
    readParts sep readPart (a ++ sep.toString ++ b) = do
      return (← readParts sep readPart a) ++ (← readParts sep readPart b) := by
  have hsplit : (a ++ sep.toString ++ b).toList.splitOn sep =
      a.toList.splitOn sep ++ b.toList.splitOn sep := by
    rw [← List.splitOn_append_cons_self]
    simp
  rw [readParts_eq_mapM, hsplit, List.mapM_append, ← readParts_eq_mapM, ← readParts_eq_mapM]

/-- No text reads as the empty list. -/
theorem readParts_ne_nil (input : String) : readParts sep readPart input ≠ .ok [] := by
  rw [Ne, readParts_eq_ok, List.forall₂_nil_right_iff]
  exact List.splitOn_ne_nil sep _

/-- A value in print, with white space around it. -/
structure Padded (α : Type) where
  before : List Char
  value : α
  after : List Char
  blank_before : ∀ c ∈ before, isWhitespace c
  blank_after : ∀ c ∈ after, isWhitespace c

/-- The text of a padded value. -/
def Padded.text (print : α → String) (p : Padded α) : String :=
  String.ofList (p.before ++ (print p.value).toList ++ p.after)

variable {sep readPart}

/-- Printed values with separators between them read as the values. -/
theorem readParts_intercalate {print : α → String} {elements : List (Padded α)}
    (hne : elements ≠ []) (hsep : isWhitespace sep = false)
    (hprint : ∀ p ∈ elements, sep ∉ (print p.value).toList)
    (hread : ∀ p ∈ elements, readPart (p.text print) = .ok p.value) :
    readParts sep readPart (sep.toString.intercalate (elements.map (Padded.text print))) =
      .ok (elements.map Padded.value) := by
  have hsplit : (sep.toString.intercalate (elements.map (Padded.text print))).toList.splitOn sep =
      elements.map fun p => (p.text print).toList := by
    rw [String.toList_intercalate, List.map_map, show sep.toString.toList = [sep] by simp]
    refine List.splitOn_intercalate sep ?_ fun h => hne (List.map_eq_nil_iff.mp h)
    simp only [List.mem_map, Function.comp_apply, Padded.text, String.toList_ofList,
      forall_exists_index, and_imp, forall_apply_eq_imp_iff₂, List.mem_append, not_or]
    intro p hp
    have hblank : ∀ {l : List Char}, (∀ c ∈ l, isWhitespace c) → sep ∉ l :=
      fun hl hmem => by simp [hl sep hmem] at hsep
    exact ⟨⟨hblank p.blank_before, hprint p hp⟩, hblank p.blank_after⟩
  rw [readParts_eq_ok, hsplit, List.forall₂_map_left_iff, List.forall₂_map_right_iff]
  refine List.forall₂_same.mpr fun p hp => ?_
  rw [String.ofList_toList]
  exact hread p hp

end Parts

end Text
