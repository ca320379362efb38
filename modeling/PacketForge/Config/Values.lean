import PacketForge.Config.Meaning

set_option autoImplicit false

/-! # What values mean

`parseValue` infers the type of a value from its text: `parseValue_eq`. An integer literal is an
optional sign and digits. `integers_kept_iff` says when its key gets that integer: the literals
that do not fit into 64 bits become strings.

`std::stoll` reads as many digits as there are and reports where it stopped; the code takes the
number only if that was the end of the text. So there are three kinds of text: a literal in range,
which is read to its end; a literal out of range, for which `std::stoll` throws; and anything
else, where something is left over or nothing was read. The code does not tell the last two apart
from a string.
-/

namespace PacketForge.ConfigLoader

open Text

/-! ## Integer literals

The number that a literal stands for is an integer without bounds; that it has to fit is a
condition on it.
-/

/-- A text without its sign. -/
def magnitude (v : StdString) : StdString :=
  if v.head? = some minus ∨ v.head? = some plus then v.tail else v

/-- An optional sign and at least one digit. -/
def IsLiteral (v : StdString) : Prop := magnitude v ≠ [] ∧ ∀ d ∈ magnitude v, isDigit d = true

/-- A number with the sign of a text. -/
def signed (v : StdString) (n : Nat) : Int := if v.head? = some minus then -(n : Int) else n

/-- The number that an integer literal stands for. -/
def literalValue (v : StdString) : Int := signed v (ofDecimal (magnitude v))

/-- The numbers of `std::int64_t`. -/
def InRange (n : Int) : Prop := -2 ^ 63 ≤ n ∧ n < 2 ^ 63

instance : DecidablePred IsLiteral := fun v =>
  inferInstanceAs (Decidable (magnitude v ≠ [] ∧ ∀ d ∈ magnitude v, isDigit d = true))

instance : DecidablePred InRange := fun n =>
  inferInstanceAs (Decidable (-2 ^ 63 ≤ n ∧ n < 2 ^ 63))

theorem outOfRange_iff (n : Int) : (n < -2 ^ 63 ∨ 2 ^ 63 ≤ n) ↔ ¬ InRange n := by
  rw [InRange, not_and_or, not_le, not_lt]

theorem toInt_ofInt {n : Int} (hn : InRange n) : (Int64.ofInt n).toInt = n :=
  Int64.toInt_ofInt_of_le hn.1 hn.2

theorem length_magnitude_le (v : StdString) : (magnitude v).length ≤ v.length := by
  unfold magnitude
  split_ifs
  · exact (List.tail_suffix v).length_le
  · exact le_rfl

theorem drop_sign (v : StdString) : v.drop (v.length - (magnitude v).length) = magnitude v := by
  unfold magnitude
  split_ifs with hsign
  · rcases v with _ | ⟨b, v⟩
    · simp at hsign
    · simp
  · rw [Nat.sub_self, List.drop_zero]

/-- The type that `parseValue` infers, and the value: the two words for the booleans first, then
the integers that fit, then strings. -/
def inferred (v : StdString) : ConfigValue :=
  if v = trueText then .boolean true
  else if v = falseText then .boolean false
  else if IsLiteral v ∧ InRange (literalValue v) then .integer (Int64.ofInt (literalValue v))
  else .string v

/-- `std::stoll` on a text that does not start with white space. -/
theorem stoll_eq {v : StdString} (hv : v.takeWhile isspace = []) :
    stoll v =
      let digits := (magnitude v).takeWhile isDigit
      if digits = [] then .error .invalid_argument
      else if InRange (signed v (ofDecimal digits)) then
        .ok (Int64.ofInt (signed v (ofDecimal digits)),
          v.length - (magnitude v).length + digits.length)
      else .error .out_of_range := by
  have hfirst : v[(v.takeWhile isspace).length]? = v.head? := by
    rw [hv, List.length_nil, List.head?_eq_getElem?]
  have hsign : (v.takeWhile isspace).length +
      (if v.head? = some minus ∨ v.head? = some plus then 1 else 0)
        = v.length - (magnitude v).length := by
    have hle := length_magnitude_le v
    rw [hv, List.length_nil, Nat.zero_add]
    split_ifs with hhead
    · have hpos : 0 < v.length := List.length_pos_of_ne_nil fun hnil => by simp [hnil] at hhead
      rw [magnitude, if_pos hhead, List.length_tail]
      omega
    · rw [magnitude, if_neg hhead]
      omega
  have hsigned : ∀ n : Nat, (if v.head? = some minus then -(n : Int) else n) = signed v n :=
    fun n => rfl
  simp only [stoll, hfirst, hsign, drop_sign, decide_eq_true_eq, hsigned, outOfRange_iff, ite_not]

/-- The digits of a literal go to the end. -/
theorem stoll_literal {v : StdString} (hv : v.takeWhile isspace = []) (hliteral : IsLiteral v) :
    stoll v = if InRange (literalValue v) then .ok (Int64.ofInt (literalValue v), v.length)
      else .error .out_of_range := by
  obtain ⟨hne, hdigits⟩ := hliteral
  have hlength : v.length - (magnitude v).length + (magnitude v).length = v.length :=
    Nat.sub_add_cancel (length_magnitude_le v)
  have hstoll := stoll_eq hv
  rw [List.takeWhile_eq_self_iff.mpr hdigits] at hstoll
  simp only [if_neg hne, hlength] at hstoll
  exact hstoll

/-- For a text that is no literal, `std::stoll` throws or stops before the end of it. -/
theorem stoll_not_literal {v : StdString} (hv : v.takeWhile isspace = []) (hliteral : ¬ IsLiteral v)
    {n : Int64} {position : Nat} (hstoll : stoll v = .ok (n, position)) : position ≠ v.length := by
  have hle := length_magnitude_le v
  have hprefix := List.takeWhile_prefix isDigit (l := magnitude v)
  rw [stoll_eq hv] at hstoll
  dsimp only at hstoll
  split_ifs at hstoll with hnone hrange
  obtain ⟨-, rfl⟩ := Prod.mk.inj (Except.ok.inj hstoll)
  intro hend
  have hall : (magnitude v).takeWhile isDigit = magnitude v :=
    hprefix.eq_of_length (by have := hprefix.length_le; omega)
  rw [hall] at hnone
  exact hliteral ⟨hnone, List.takeWhile_eq_self_iff.mp hall⟩

/-- **The inference of the type.** On a text that is not empty and has no white space at its ends,
`parseValue` gives the value that is inferred from it, and does not throw. -/
theorem parseValue_eq {v : StdString} (hne : v ≠ []) (hstrip : strip isspace v = v) :
    parseValue v = .ok (inferred v) := by
  have hempty : ¬ v.isEmpty = true := by rwa [List.isEmpty_iff]
  have hstart := takeWhile_of_strip_eq hstrip
  simp only [parseValue, trim_eq, hstrip, if_neg hempty]
  unfold inferred
  by_cases htrue : v = trueText
  · rw [if_pos htrue, if_pos htrue]
  by_cases hfalse : v = falseText
  · rw [if_neg htrue, if_neg htrue, if_pos hfalse, if_pos hfalse]
  rw [if_neg htrue, if_neg htrue, if_neg hfalse, if_neg hfalse]
  by_cases hliteral : IsLiteral v
  · rw [stoll_literal hstart hliteral]
    by_cases hrange : InRange (literalValue v)
    · rw [if_pos hrange, if_pos ⟨hliteral, hrange⟩]
      exact if_pos rfl
    · rw [if_neg hrange, if_neg fun h => hrange h.2]
  · rw [if_neg fun h => hliteral h.1]
    split
    · next n position hstoll => exact if_neg (stoll_not_literal hstart hliteral hstoll)
    · rfl

/-! ## Integers in a file -/

/-- The key of a line has the integer that the value of the line stands for: `asInteger` gives
exactly the number that is written there. -/
def Kept (config : Config) (line : StdString) : Prop :=
  ∃ v n, config.get (key line) = some v ∧ v.asInteger = .ok n ∧ n.toInt = literalValue (value line)

section

variable {line : StdString}

theorem value_ne_nil (hliteral : IsLiteral (value line)) : value line ≠ [] := by
  intro hnil
  rw [hnil] at hliteral
  exact absurd hliteral (by decide)

theorem parseValue_literal (hliteral : IsLiteral (value line)) :
    parseValue (value line) = .ok (if InRange (literalValue (value line))
      then .integer (Int64.ofInt (literalValue (value line))) else .string (value line)) := by
  have htrue : value line ≠ trueText := fun heq => absurd (heq ▸ hliteral) (by decide)
  have hfalse : value line ≠ falseText := fun heq => absurd (heq ▸ hliteral) (by decide)
  rw [parseValue_eq (value_ne_nil hliteral) (strip_strip _), inferred, if_neg htrue,
    if_neg hfalse]
  simp [hliteral]

theorem kept_iff (hliteral : IsLiteral (value line)) {config : Config} {v : ConfigValue}
    (hv : parseValue (value line) = .ok v) (hget : config.get (key line) = some v) :
    Kept config line ↔ InRange (literalValue (value line)) := by
  obtain rfl := Except.ok.inj ((parseValue_literal hliteral).symm.trans hv)
  unfold Kept
  rw [hget]
  constructor
  · rintro ⟨v, n, hv, hn, hvalue⟩
    by_contra hrange
    rw [if_neg hrange] at hv
    obtain rfl := Option.some.inj hv
    cases hn
  · intro hrange
    rw [if_pos hrange]
    exact ⟨_, _, rfl, rfl, toInt_ofInt hrange⟩

end

/-- **The integers of a file are kept exactly when they fit into 64 bits.** On one line, either
the key is missing, which is an error, or the key gets the integer if and only if it is in range.
So in a whole file: either it has a bad line, or the condition is on the last lines of the keys.
-/
theorem integers_kept_iff (path : String) (content : StdString) :
    (∀ config lineNumber line, ¬ Ignored line → IsLiteral (value line) →
      ((∀ config', loadLine config lineNumber line = .ok config' → Kept config' line) ↔
        key line = [] ∨ InRange (literalValue (value line)))) ∧
    ((∀ config, load path (reading content) = .ok config →
        ∀ k line, lastLine (lines content) k = some line → IsLiteral (value line) →
          Kept config line) ↔
      (∃ line ∈ lines content, Bad line) ∨
        ∀ k line, lastLine (lines content) k = some line → IsLiteral (value line) →
          InRange (literalValue (value line))) := by
  constructor
  · intro config lineNumber line hentry hliteral
    have hvalue := value_ne_nil hliteral
    have hmem : equals ∈ line := by
      by_contra hmem
      rw [value, List.dropWhile_eq_nil_iff.mpr (all_ne_equals hmem)] at hvalue
      exact hvalue rfl
    have hbad : Bad line ↔ key line = [] := by simp [Bad, hentry, hmem, hvalue]
    rw [loadLine_eq, if_neg hentry]
    by_cases hkey : key line = []
    · rw [if_pos (hbad.mpr hkey)]
      exact iff_of_true (fun config' hload => by cases hload) (.inl hkey)
    · rw [if_neg fun h => hkey (hbad.mp h), parseValue_literal hliteral]
      have hget := kept_iff hliteral (parseValue_literal hliteral) (Config.get_set_self config ..)
      constructor
      · exact fun hkept => .inr (hget.mp (hkept _ rfl))
      · intro hor config' hload
        obtain rfl := Except.ok.inj hload
        exact hget.mpr (hor.resolve_left hkey)
  · have hopen : (reading content).is_open = true := rfl
    rw [load_eq path hopen]
    by_cases hbad : ∃ line ∈ lines content, Bad line
    · refine iff_of_true (fun config hload => ?_) (.inl hbad)
      obtain ⟨before, line, after, hsplit, hbefore, hline⟩ := exists_first_bad hbad
      rw [show (reading content).lines = _ from hsplit, loadAll_bad hbefore hline] at hload
      cases hload
    · have hgood : ∀ line ∈ lines content, ¬ Bad line := fun line hmem hline =>
        hbad ⟨line, hmem, hline⟩
      obtain ⟨config, hload, hget⟩ := loadAll_good Config.new 0 hgood
      rw [show loadAll (reading content).lines Config.new 0 = .ok config from hload,
        or_iff_right hbad]
      -- key by key, as `load` binds a key to the value of its last line
      have hlast : ∀ k line, lastLine (lines content) k = some line → IsLiteral (value line) →
          (Kept config line ↔ InRange (literalValue (value line))) := by
        intro k line hline hliteral
        obtain ⟨v, hv, hconfig⟩ := (hget k).2 line hline
        obtain ⟨-, -, rfl⟩ := lastLine_some hline
        exact kept_iff hliteral hv hconfig
      constructor
      · exact fun hkept k line hline hliteral =>
          (hlast k line hline hliteral).mp (hkept config rfl k line hline hliteral)
      · intro hrange config' hload' k line hline hliteral
        obtain rfl := Except.ok.inj hload'
        exact (hlast k line hline hliteral).mpr (hrange k line hline hliteral)

/-- `2^63` is an integer literal, and the key of its line gets it as a string. -/
theorem overflow_not_kept :
    let port : StdString := "port".toList.map Char.toUInt8
    let number : StdString := "9223372036854775808".toList.map Char.toUInt8
    IsLiteral number ∧
      ∃ config, load "server.conf" (reading (port ++ equals :: number)) = .ok config ∧
        config.get port = some (.string number) :=
  ⟨by decide +kernel, exists_of_toOption (by decide +kernel)⟩

end PacketForge.ConfigLoader
