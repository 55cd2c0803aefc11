import Ipfusch.Sweep
import Ipfusch.Text

/-!
# The rates and stream counts of the command line

`parse_rate_mode` reads a number with a unit, `parse_rates_list` and `parse_streams_list` read
lists with commas.

`parseRateMode_grammar` : the accepted rates are the word `auto` and the numbers with one of ten
suffixes, whose exact product is positive and fits in 64 bits. `sweepLists` : a list reads part
by part, one bad part is an error of the list, and a printed list reads as itself.
-/

namespace Ipfusch

open Text

/-! ## Rates -/

/-- The input of `parse_rate_mode`, trimmed and in ASCII lower case. -/
def rawRate (input : String) : List Char :=
  (trim input.toList).map Char.toLower

/-- The digits and the scale of a rate : the units are tried in the order of the source, the long
form of each before its letter. -/
def splitRate (raw : List Char) : List Char × ℕ :=
  let stripSuffix (suffix : String) := List.isSuffixOf? suffix.toList raw
  if let some v := (stripSuffix "kbps").or (stripSuffix "k") then (v, 1000)
  else if let some v := (stripSuffix "mbps").or (stripSuffix "m") then (v, 1000000)
  else if let some v := (stripSuffix "gbps").or (stripSuffix "g") then (v, 1000000000)
  else if let some v := (stripSuffix "tbps").or (stripSuffix "t") then (v, 1000000000000)
  else if let some v := stripSuffix "bps" then (v, 1)
  else (raw, 1)

/-- `parse_rate_mode` -/
def parseRateMode (input : String) : Except String RateMode :=
  let raw := rawRate input
  if raw = "auto".toList then .ok .auto
  else
    let (digits, scale) := splitRate raw
    match parseUnsigned (2 ^ 64) digits with
    | .error e => .error ("invalid rate `" ++ input ++ "`: " ++ e.toString)
    | .ok base =>
      let total := base * scale
      if 2 ^ 64 ≤ total then .error ("rate `" ++ input ++ "` is too large")
      else if total = 0 then .error "rate must be > 0"
      else .ok (.bps (UInt64.ofNat total))

example : parseRateMode " +250Mbps" = .ok (.bps 250000000) := by decide +kernel

/-- The suffixes of a rate, with their scales. -/
def rateSuffixes : List (String × ℕ) :=
  [("", 1), ("bps", 1), ("k", 10 ^ 3), ("kbps", 10 ^ 3), ("m", 10 ^ 6), ("mbps", 10 ^ 6),
    ("g", 10 ^ 9), ("gbps", 10 ^ 9), ("t", 10 ^ 12), ("tbps", 10 ^ 12)]

/-- A numeral and a suffix, of value `v`. -/
def RateGrammar (raw : List Char) (v : ℕ) : Prop :=
  ∃ digits n suffix scale, IsNumeral digits n ∧ (suffix, scale) ∈ rateSuffixes ∧
    raw = digits ++ suffix.toList ∧ v = n * scale

theorem suffix_of_or {raw v : List Char} {long short : String} {scale : ℕ}
    (hlong : (long, scale) ∈ rateSuffixes) (hshort : (short, scale) ∈ rateSuffixes)
    (h : (List.isSuffixOf? long.toList raw).or (List.isSuffixOf? short.toList raw) = some v) :
    ∃ suffix, (suffix, scale) ∈ rateSuffixes ∧ raw = v ++ suffix.toList := by
  obtain h | ⟨-, h⟩ := Option.or_eq_some_iff.mp h
  · exact ⟨long, hlong, (List.isSuffixOf?_eq_some_iff_append_eq.mp h).symm⟩
  · exact ⟨short, hshort, (List.isSuffixOf?_eq_some_iff_append_eq.mp h).symm⟩

/-- What is split off is one of the suffixes. -/
theorem splitRate_spec (raw : List Char) :
    ∃ suffix, (suffix, (splitRate raw).2) ∈ rateSuffixes ∧
      raw = (splitRate raw).1 ++ suffix.toList := by
  unfold splitRate
  dsimp only
  split
  · next h => exact suffix_of_or (by simp [rateSuffixes]) (by simp [rateSuffixes]) h
  split
  · next h => exact suffix_of_or (by simp [rateSuffixes]) (by simp [rateSuffixes]) h
  split
  · next h => exact suffix_of_or (by simp [rateSuffixes]) (by simp [rateSuffixes]) h
  split
  · next h => exact suffix_of_or (by simp [rateSuffixes]) (by simp [rateSuffixes]) h
  split
  · next h =>
    exact ⟨"bps", by simp [rateSuffixes], (List.isSuffixOf?_eq_some_iff_append_eq.mp h).symm⟩
  · exact ⟨"", by simp [rateSuffixes], by simp⟩

/-- A numeral with a suffix is split there. -/
theorem splitRate_append {digits : List Char} {n scale : ℕ} {suffix : String}
    (hdigits : IsNumeral digits n) (hsuffix : (suffix, scale) ∈ rateSuffixes) :
    splitRate (digits ++ suffix.toList) = (digits, scale) := by
  have hstrip : ∀ unit ∈ ["kbps", "k", "mbps", "m", "gbps", "g", "tbps", "t", "bps"],
      ∀ s, List.isSuffixOf? unit.toList (digits ++ s) =
        (List.isSuffixOf? unit.toList s).map (digits ++ ·) := by
    intro unit hunit s
    refine isSuffixOf?_append fun c hc => ?_
    have hletters : ["kbps", "k", "mbps", "m", "gbps", "g", "tbps", "t", "bps"].all
        (fun unit => unit.toList.all fun c => !(c.isDigit || c == '+')) = true := by decide
    intro hmem
    have hletter := List.all_eq_true.mp (List.all_eq_true.mp hletters unit hunit) c hmem
    obtain h | h := hdigits.mem hc <;> simp [h] at hletter
  simp only [List.forall_mem_cons, List.not_mem_nil, false_imp_iff, implies_true, and_true]
    at hstrip
  obtain ⟨hkbps, hk, hmbps, hm, hgbps, hg, htbps, ht, hbps⟩ := hstrip
  simp only [splitRate, hkbps, hk, hmbps, hm, hgbps, hg, htbps, ht, hbps]
  simp only [rateSuffixes, List.mem_cons, Prod.mk.injEq, List.not_mem_nil, or_false] at hsuffix
  rcases hsuffix with ⟨rfl, rfl⟩ | ⟨rfl, rfl⟩ | ⟨rfl, rfl⟩ | ⟨rfl, rfl⟩ | ⟨rfl, rfl⟩ | ⟨rfl, rfl⟩ |
    ⟨rfl, rfl⟩ | ⟨rfl, rfl⟩ | ⟨rfl, rfl⟩ | ⟨rfl, rfl⟩ <;> simp [List.isSuffixOf?, List.isPrefixOf?]

/-- A rate other than `auto` is a numeral and a scale, of a positive product. -/
theorem parseRateMode_of_ne {input : String} (h : rawRate input ≠ "auto".toList) (v : UInt64) :
    parseRateMode input = .ok (.bps v) ↔
      ∃ n, IsNumeral (splitRate (rawRate input)).1 n ∧
        v.toNat = n * (splitRate (rawRate input)).2 ∧ 1 ≤ v.toNat := by
  obtain ⟨suffix, hsuffix, -⟩ := splitRate_spec (rawRate input)
  have hscale : ∀ entry ∈ rateSuffixes, 1 ≤ entry.2 := by decide
  have hpos := hscale _ hsuffix
  simp only [parseRateMode, if_neg h]
  generalize splitRate (rawRate input) = parts at hpos ⊢
  obtain ⟨digits, scale⟩ := parts
  dsimp only at hpos ⊢
  have hv := v.toNat_lt
  constructor
  · intro hok
    split at hok
    · cases hok
    · next base hbase =>
      split_ifs at hok with hlarge hzero
      obtain rfl := RateMode.bps.inj (Except.ok.inj hok)
      rw [UInt64.toNat_ofNat_of_lt' (not_le.mp hlarge)]
      exact ⟨base, ((parseUnsigned_eq_ok (by decide)).mp hbase).1, rfl,
        Nat.one_le_iff_ne_zero.mpr hzero⟩
  · rintro ⟨n, hn, hvn, hone⟩
    have hle : n ≤ n * scale := Nat.le_mul_of_pos_right n hpos
    have hbase : parseUnsigned (2 ^ 64) digits = .ok n :=
      (parseUnsigned_eq_ok (by decide)).mpr ⟨hn, by omega⟩
    rw [hbase]
    dsimp only
    rw [if_neg (by omega), if_neg (by omega), ← hvn, UInt64.ofNat_toNat]

/-- `auto` is not of the grammar. -/
theorem not_rateGrammar_auto (v : ℕ) : ¬RateGrammar "auto".toList v := by
  rintro ⟨digits, n, suffix, scale, hdigits, -, hraw, -⟩
  obtain ⟨c, rest, rfl⟩ := List.exists_cons_of_ne_nil hdigits.ne_nil
  obtain ⟨rfl, -⟩ := List.cons.inj hraw
  exact absurd (hdigits.mem List.mem_cons_self) (by decide)

/-- A rate is accepted as a number exactly if it is of the grammar. -/
theorem parseRateMode_eq_bps (input : String) (v : UInt64) :
    parseRateMode input = .ok (.bps v) ↔ RateGrammar (rawRate input) v.toNat ∧ 1 ≤ v.toNat := by
  by_cases hauto : rawRate input = "auto".toList
  · constructor
    · intro h
      rw [parseRateMode, if_pos hauto] at h
      cases h
    · rintro ⟨hgrammar, -⟩
      rw [hauto] at hgrammar
      exact absurd hgrammar (not_rateGrammar_auto _)
  · rw [parseRateMode_of_ne hauto]
    constructor
    · rintro ⟨n, hn, hv, hone⟩
      obtain ⟨suffix, hsuffix, hraw⟩ := splitRate_spec (rawRate input)
      exact ⟨⟨_, n, suffix, _, hn, hsuffix, hraw, hv⟩, hone⟩
    · rintro ⟨⟨digits, n, suffix, scale, hdigits, hsuffix, hraw, hv⟩, hone⟩
      rw [hraw, splitRate_append hdigits hsuffix]
      exact ⟨n, hdigits, hv, hone⟩

theorem parseRateMode_eq_auto (input : String) :
    parseRateMode input = .ok .auto ↔ rawRate input = "auto".toList := by
  unfold parseRateMode
  constructor
  · intro h
    by_contra hraw
    simp only [if_neg hraw] at h
    split at h
    · cases h
    · split_ifs at h
      cases h
  · intro h
    exact if_pos h

theorem not_isWhitespace_rateLabel (m : RateMode) {c : Char} (hc : c ∈ (rateLabel m).toList) :
    isWhitespace c = false := by
  cases m with
  | auto =>
    have hauto : "auto".toList.all (fun c => !isWhitespace c) = true := by decide
    simpa using List.all_eq_true.mp hauto c hc
  | bps v => exact (isNumeral_toString v.toNat).not_isWhitespace hc

theorem rawRate_rateLabel (m : RateMode) : rawRate (rateLabel m) = (rateLabel m).toList := by
  rw [rawRate, trim_eq_self fun _ => not_isWhitespace_rateLabel m]
  cases m with
  | auto => decide
  | bps v => exact (isNumeral_toString v.toNat).map_toLower

/-- The label of a rate is read as the rate. -/
theorem parseRateMode_rateLabel {m : RateMode} (hm : m ≠ .bps 0) :
    parseRateMode (rateLabel m) = .ok m := by
  cases m with
  | auto => exact (parseRateMode_eq_auto _).mpr (rawRate_rateLabel .auto)
  | bps v =>
    have hv : v.toNat ≠ 0 := fun h => hm (congrArg RateMode.bps (UInt64.toNat_inj.mp h))
    rw [parseRateMode_eq_bps, rawRate_rateLabel]
    exact ⟨⟨_, v.toNat, "", 1, isNumeral_toString v.toNat, by decide, (List.append_nil _).symm,
      (mul_one _).symm⟩, Nat.one_le_iff_ne_zero.mpr hv⟩

/-- The accepted rates are `auto` and the grammar's, with their exact values, and every other text
is an error. A label is read as its rate. -/
theorem parseRateMode_grammar :
    (∀ input, parseRateMode input = .ok .auto ↔ rawRate input = "auto".toList) ∧
      (∀ input v, parseRateMode input = .ok (.bps v) ↔
        RateGrammar (rawRate input) v.toNat ∧ 1 ≤ v.toNat) ∧
      (∀ input, rawRate input ≠ "auto".toList →
        (∀ v, 1 ≤ v → v < 2 ^ 64 → ¬RateGrammar (rawRate input) v) →
          ∃ e, parseRateMode input = .error e) ∧
      ∀ m, m ≠ .bps 0 → parseRateMode (rateLabel m) = .ok m := by
  refine ⟨parseRateMode_eq_auto, parseRateMode_eq_bps, fun input hauto hgrammar => ?_,
    fun m hm => parseRateMode_rateLabel hm⟩
  cases hparse : parseRateMode input with
  | error e => exact ⟨e, rfl⟩
  | ok m =>
    cases m with
    | auto => exact absurd ((parseRateMode_eq_auto input).mp hparse) hauto
    | bps v =>
      obtain ⟨hv, hone⟩ := (parseRateMode_eq_bps input v).mp hparse
      exact absurd hv (hgrammar _ hone v.toNat_lt)

/-! ## Lists -/

/-- The list parsers : the parts between commas, with `parsePart` the body of the loop. -/
def parseList {α : Type} (parsePart : String → Except String α) (emptyError : String)
    (input : String) : Except String (List α) :=
  match readParts ',' parsePart input with
  | .error e => .error e
  | .ok out => if out.isEmpty then .error emptyError else .ok out

/-- A stream count, as `parse_streams_list` reads it. -/
def parseStreamCount (part : String) : Except String UInt16 :=
  match parseUnsigned (2 ^ 16) (trim part.toList) with
  | .error e => .error ("invalid stream count `" ++ part ++ "`: " ++ e.toString)
  | .ok value =>
    if value = 0 then .error "stream count must be >= 1" else .ok (UInt16.ofNat value)

/-- `parse_streams_list` -/
def parseStreamsList : String → Except String (List UInt16) :=
  parseList parseStreamCount "empty streams list"

/-- A rate, as `parse_rates_list` reads it. -/
def parseRate (part : String) : Except String RateMode :=
  parseRateMode (String.ofList (trim part.toList))

/-- `parse_rates_list` -/
def parseRatesList : String → Except String (List RateMode) :=
  parseList parseRate "empty rates list"

example : parseRatesList "auto, 100m" = .ok [.auto, .bps 100000000] := by decide +kernel

/-- There is always a part, so the list is never empty. -/
theorem parseList_eq {α : Type} (parsePart : String → Except String α) (emptyError : String)
    (input : String) : parseList parsePart emptyError input = readParts ',' parsePart input := by
  rw [parseList]
  cases hparts : readParts ',' parsePart input with
  | error e => rfl
  | ok out =>
    have hne : out ≠ [] := fun h => readParts_ne_nil ',' parsePart input (h ▸ hparts)
    dsimp only
    rw [if_neg (by simpa using hne)]

/-- A parser of lists : one value for each part, in order, which takes a joined text as it takes
its two halves and reads the printed valid values back. -/
structure ReadsLists {α : Type} (parse : String → Except String (List α))
    (parsePart : String → Except String α) (print : α → String) (valid : α → Prop) : Prop where
  parts : ∀ input out, parse input = .ok out ↔
    List.Forall₂ (fun part v => parsePart (String.ofList part) = .ok v)
      (input.toList.splitOn ',') out
  append : ∀ a b x y, parse a = .ok x → parse b = .ok y → parse (a ++ "," ++ b) = .ok (x ++ y)
  error_left : ∀ a b e, parse a = .error e → parse (a ++ "," ++ b) = .error e
  error_right : ∀ a b e, parse b = .error e → ∃ e', parse (a ++ "," ++ b) = .error e'
  ne_nil : ∀ input, parse input ≠ .ok []
  print : ∀ elements : List (Padded α), elements ≠ [] → (∀ p ∈ elements, valid p.value) →
    parse (",".intercalate (elements.map (Padded.text print))) = .ok (elements.map Padded.value)

theorem readsLists_parseList {α : Type} {parsePart : String → Except String α}
    {emptyError : String} {print : α → String} {valid : α → Prop}
    (hprint : ∀ v, valid v → ',' ∉ (print v).toList)
    (hread : ∀ p : Padded α, valid p.value → parsePart (p.text print) = .ok p.value) :
    ReadsLists (parseList parsePart emptyError) parsePart print valid := by
  have hcomma : (',').toString = "," := rfl
  have hparse : parseList parsePart emptyError = readParts ',' parsePart :=
    funext (parseList_eq parsePart emptyError)
  rw [hparse]
  refine ⟨fun _ _ => readParts_eq_ok _ _, fun a b x y ha hb => ?_, fun a b e ha => ?_,
    fun a b e hb => ?_, readParts_ne_nil _ _, fun elements hne hvalid => ?_⟩
  · rw [← hcomma, readParts_append, ha, hb]
    rfl
  · rw [← hcomma, readParts_append, ha]
    rfl
  · rw [← hcomma, readParts_append, hb]
    cases readParts ',' parsePart a with
    | error e' => exact ⟨e', rfl⟩
    | ok x => exact ⟨e, rfl⟩
  · rw [← hcomma]
    exact readParts_intercalate hne (by decide) (fun p hp => hprint _ (hvalid p hp))
      fun p hp => hread p (hvalid p hp)

theorem not_comma_mem_of_isNumeral {s : List Char} {n : ℕ} (h : IsNumeral s n) : ',' ∉ s :=
  fun hmem => absurd (h.mem hmem) (by decide)

/-- A stream count in print, within white space, is read back. -/
theorem parseStreamCount_text (p : Padded UInt16) (hp : p.value ≠ 0) :
    parseStreamCount (p.text toString) = .ok p.value := by
  have hnumeral : IsNumeral (toString p.value).toList p.value.toNat :=
    isNumeral_toString p.value.toNat
  have hvalue : p.value.toNat ≠ 0 := fun h => hp (UInt16.toNat_inj.mp h)
  have hparse : parseUnsigned (2 ^ 16) (toString p.value).toList = .ok p.value.toNat :=
    (parseUnsigned_eq_ok (by decide)).mpr ⟨hnumeral, p.value.toNat_lt⟩
  rw [parseStreamCount, Padded.text, String.toList_ofList,
    trim_append p.blank_before (fun _ => hnumeral.not_isWhitespace) p.blank_after, hparse]
  dsimp only
  rw [if_neg hvalue, UInt16.ofNat_toNat]

/-- The label of a rate, within white space, is read back. -/
theorem parseRate_text (p : Padded RateMode) (hp : p.value ≠ .bps 0) :
    parseRate (p.text rateLabel) = .ok p.value := by
  rw [parseRate, Padded.text, String.toList_ofList,
    trim_append p.blank_before (fun _ => not_isWhitespace_rateLabel p.value) p.blank_after,
    String.ofList_toList, parseRateMode_rateLabel hp]

/-- The two list parsers read part by part, reject a list for one bad part, and read a printed
list as itself. -/
theorem sweepLists :
    ReadsLists parseStreamsList parseStreamCount toString (fun count => count ≠ 0) ∧
      ReadsLists parseRatesList parseRate rateLabel (fun m => m ≠ .bps 0) := by
  constructor
  · exact readsLists_parseList
      (fun count _ => not_comma_mem_of_isNumeral (isNumeral_toString count.toNat))
      parseStreamCount_text
  · refine readsLists_parseList (fun m _ => ?_) parseRate_text
    cases m with
    | auto => decide
    | bps v => exact not_comma_mem_of_isNumeral (isNumeral_toString v.toNat)

end Ipfusch
