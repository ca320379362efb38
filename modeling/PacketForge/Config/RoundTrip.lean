import Mathlib.Data.FinEnum
import PacketForge.Config.Values

set_option autoImplicit false

/-! # Writing a configuration

A configuration is written with one line for each entry, in any order, with white space around the
keys and the values and with blank and comment lines in between. `load_file` says that `load`
gives it back.

The types of a file carry what makes its parts readable. A `Key` is no comment and has no `=`, and
a `Value` that is a string does not look like a value of another type.

## How the proof goes

It is a corollary of `load_meaning`: the lines of the text are the items (`lines_file`), each line
means what its item says (`line_meaning`), and every value is inferred as it was written
(`inferred_render`). What is left is that the last entry with a key is the only one, as the keys
of different items are different (`Writes`). No loop of the code is looked at.

The last line may or may not end with a newline. If it does not and is empty, it is no line at
all, which is the one case that `lines_file` has to treat apart.
-/

namespace PacketForge.ConfigLoader

open Text

/-! ## The parts of a file

Structures with a proof in them: a file that is built from these parts can be read back, and there
is nothing else to assume.
-/

/-- White space within a line: spaces, tabs and the like, but no newline. -/
structure Padding where
  text : StdString
  isSpace : ∀ b ∈ text, isspace b = true
  noNewline : newline ∉ text

/-- No white space at the ends. -/
def Trimmed (s : StdString) : Prop :=
  (∀ b ∈ s.head?, isspace b = false) ∧ ∀ b ∈ s.getLast?, isspace b = false

instance : DecidablePred Trimmed := fun s =>
  inferInstanceAs (Decidable
    ((∀ b ∈ s.head?, isspace b = false) ∧ ∀ b ∈ s.getLast?, isspace b = false))

/-- A key that can be read back. Its text is not empty and has no white space at its ends, it does
not start a comment, and it has no `=` and no newline. -/
structure Key where
  text : StdString
  ne_nil : text ≠ []
  trimmed : Trimmed text
  noComment : text.head? ≠ some hash
  noEquals : equals ∉ text
  noNewline : newline ∉ text

/-- Booleans and integers can be read back, and strings that look like neither. -/
def Writable : ConfigValue → Prop
  | .string s =>
      s ≠ [] ∧ Trimmed s ∧ newline ∉ s ∧ s ≠ trueText ∧ s ≠ falseText ∧ ¬ IsLiteral s
  | .integer _ => True
  | .boolean _ => True

instance : DecidablePred Writable
  | .string s => inferInstanceAs (Decidable
      (s ≠ [] ∧ Trimmed s ∧ newline ∉ s ∧ s ≠ trueText ∧ s ≠ falseText ∧ ¬ IsLiteral s))
  | .integer _ => .isTrue trivial
  | .boolean _ => .isTrue trivial

/-- A value that can be read back: any boolean and any integer, and the strings that are taken for
neither. -/
structure Value where
  value : ConfigValue
  writable : Writable value

/-- An integer in decimal. -/
def decimal (n : Int) : StdString :=
  if n < 0 then minus :: toDecimal n.natAbs else toDecimal n.natAbs

/-- How a value is written. -/
def render : ConfigValue → StdString
  | .string s => s
  | .integer n => decimal n.toInt
  | .boolean true => trueText
  | .boolean false => falseText

/-- A line of a file: blank, a comment, or an entry with white space around its parts. -/
inductive Item where
  | blank (space : Padding)
  | comment (space : Padding) (text : StdString) (noNewline : newline ∉ text)
  | entry (before : Padding) (key : Key) (between : Padding) (behind : Padding) (value : Value)
      (after : Padding)

namespace Item

def line : Item → StdString
  | .blank space => space.text
  | .comment space text _ => space.text ++ hash :: text
  | .entry before key between behind value after =>
      (before.text ++ key.text ++ between.text) ++ equals ::
        (behind.text ++ render value.value ++ after.text)

/-- What a line says. -/
def binds : Item → Option (StdString × ConfigValue)
  | .entry _ key _ _ value _ => some (key.text, value.value)
  | _ => none

end Item

/-- A file of lines that end with a newline, and perhaps one more line. -/
def file (items : List Item) (last : Option Item) : StdString :=
  (items.flatMap fun item => item.line ++ [newline]) ++ (last.map Item.line).getD []

/-- The lines say what the configuration has: an entry for each of its keys with the value of the
key, and no other entry. -/
def Writes (items : List Item) (config : Config) : Prop :=
  ∀ k v, config.get k = some v ↔ ∃ item ∈ items, item.binds = some (k, v)

theorem Writes.nil : Writes [] Config.new := fun k v => by simp

section

variable {items : List Item} {config : Config} {item : Item}

theorem Writes.concat_none (hwrites : Writes items config) (hbinds : item.binds = none) :
    Writes (items ++ [item]) config := by
  intro k v
  rw [hwrites k v]
  simp [or_and_right, exists_or, hbinds]

/-- A line with a new key adds the entry to the configuration. -/
theorem Writes.concat {k : StdString} {v : ConfigValue} (hwrites : Writes items config)
    (hbinds : item.binds = some (k, v)) (hnew : config.get k = none) :
    Writes (items ++ [item]) (config.set k v) := by
  intro k' v'
  simp only [List.mem_append, List.mem_singleton, or_and_right, exists_or, exists_eq_left, hbinds,
    Option.some.injEq, Prod.mk.injEq, ← hwrites k' v']
  by_cases hkey : k' = k
  · subst hkey
    simp [hnew]
  · rw [Config.get_set_ne _ _ _ _ hkey]
    simp [Ne.symm hkey]

end

/-! ## Values -/

theorem magnitude_minus (digits : StdString) : magnitude (minus :: digits) = digits := by
  simp [magnitude]

theorem isDigit_ne_sign {b : UInt8} (hb : isDigit b = true) : b ≠ minus ∧ b ≠ plus := by
  constructor <;> (rintro rfl; revert hb; decide)

theorem head?_toDecimal (n : Nat) :
    (toDecimal n).head? ≠ some minus ∧ (toDecimal n).head? ≠ some plus := by
  constructor
  · intro hhead
    exact (isDigit_ne_sign (isDigit_of_mem_toDecimal n _ (List.mem_of_head? hhead))).1 rfl
  · intro hhead
    exact (isDigit_ne_sign (isDigit_of_mem_toDecimal n _ (List.mem_of_head? hhead))).2 rfl

theorem magnitude_toDecimal (n : Nat) : magnitude (toDecimal n) = toDecimal n :=
  if_neg (not_or.mpr (head?_toDecimal n))

theorem magnitude_decimal (n : Int) : magnitude (decimal n) = toDecimal n.natAbs := by
  unfold decimal
  split_ifs
  · exact magnitude_minus _
  · exact magnitude_toDecimal _

theorem isLiteral_decimal (n : Int) : IsLiteral (decimal n) := by
  rw [IsLiteral, magnitude_decimal]
  exact ⟨toDecimal_ne_nil _, isDigit_of_mem_toDecimal _⟩

/-- An integer that is written and read. -/
theorem literalValue_decimal (n : Int) : literalValue (decimal n) = n := by
  rw [literalValue, magnitude_decimal, ofDecimal_toDecimal, signed]
  unfold decimal
  by_cases hneg : n < 0
  · rw [if_pos hneg, if_pos (show (minus :: toDecimal n.natAbs).head? = some minus from rfl)]
    omega
  · rw [if_neg hneg, if_neg (head?_toDecimal _).1]
    omega

theorem inRange_toInt (n : Int64) : InRange n.toInt := ⟨n.le_toInt, n.toInt_lt⟩

theorem ne_of_isLiteral {v : StdString} (hv : IsLiteral v) : v ≠ trueText ∧ v ≠ falseText := by
  constructor <;> (rintro rfl; revert hv; decide)

/-- **Every value is inferred as it was written.** For an integer this is the round trip through
its decimal digits, for a string the condition that it can be written. -/
theorem inferred_render (v : Value) : inferred (render v.value) = v.value := by
  obtain ⟨v, hv⟩ := v
  cases v with
  | string s =>
      obtain ⟨-, -, -, htrue, hfalse, hliteral⟩ := hv
      show inferred s = .string s
      rw [inferred, if_neg htrue, if_neg hfalse, if_neg fun h => hliteral h.1]
  | integer n =>
      have hliteral := isLiteral_decimal n.toInt
      have hvalue := literalValue_decimal n.toInt
      show inferred (decimal n.toInt) = .integer n
      rw [inferred, if_neg (ne_of_isLiteral hliteral).1, if_neg (ne_of_isLiteral hliteral).2,
        if_pos ⟨hliteral, hvalue.symm ▸ inRange_toInt n⟩, hvalue, Int64.ofInt_toInt]
  | boolean b => cases b <;> rfl

theorem strip_trimmed {s : StdString} (hs : Trimmed s) : strip isspace s = s :=
  strip_eq_self hs.1 hs.2

theorem trimmed_of_forall {s : StdString} (hs : ∀ b ∈ s, isspace b = false) :
    Trimmed s ∧ newline ∉ s := by
  refine ⟨⟨fun b hb => hs b (List.mem_of_head? hb), fun b hb => hs b (List.mem_of_getLast? hb)⟩,
    fun hmem => ?_⟩
  exact absurd (hs _ hmem) (by decide)

theorem isspace_of_isDigit {b : UInt8} (hb : isDigit b = true) : isspace b = false := by
  simp only [isDigit, Bool.and_eq_true, decide_eq_true_eq, UInt8.le_iff_toNat_le] at hb
  simp only [isspace, Bool.or_eq_false_iff, Bool.and_eq_false_iff, decide_eq_false_iff_not,
    UInt8.le_iff_toNat_le, ← UInt8.toNat_inj]
  have hlow : (48 : UInt8).toNat = 48 := rfl
  have hspace : (32 : UInt8).toNat = 32 := rfl
  have htab : (13 : UInt8).toNat = 13 := rfl
  omega

theorem isspace_of_mem_decimal (n : Int) : ∀ b ∈ decimal n, isspace b = false := by
  have hdigits : ∀ b ∈ toDecimal n.natAbs, isspace b = false := fun b hb =>
    isspace_of_isDigit (isDigit_of_mem_toDecimal _ b hb)
  unfold decimal
  split_ifs
  · exact List.forall_mem_cons.mpr ⟨by decide, hdigits⟩
  · exact hdigits

/-- What is written for a value is one word of a line. -/
theorem render_readable (v : Value) :
    render v.value ≠ [] ∧ Trimmed (render v.value) ∧ newline ∉ render v.value := by
  obtain ⟨v, hv⟩ := v
  cases v with
  | string s => exact ⟨hv.1, hv.2.1, hv.2.2.1⟩
  | integer n =>
      refine ⟨fun hnil => ?_, trimmed_of_forall (isspace_of_mem_decimal n.toInt)⟩
      exact (isLiteral_decimal n.toInt).1 (by rw [show decimal n.toInt = [] from hnil]; rfl)
  | boolean b =>
      have hletters : ∀ b, render (.boolean b) ≠ [] ∧
          ∀ c ∈ render (.boolean b), isspace c = false := by decide +kernel
      exact ⟨(hletters b).1, trimmed_of_forall (hletters b).2⟩

theorem parseValue_render (v : Value) : parseValue (render v.value) = .ok v.value := by
  obtain ⟨hne, htrimmed, -⟩ := render_readable v
  rw [parseValue_eq hne (strip_trimmed htrimmed), inferred_render]

/-! ## Lines -/

theorem newline_notMem_line (item : Item) : newline ∉ item.line := by
  cases item with
  | blank space => exact space.noNewline
  | comment space text noNewline =>
      simp only [Item.line, List.mem_append, List.mem_cons, not_or]
      exact ⟨space.noNewline, by decide, noNewline⟩
  | entry before key between behind value after =>
      simp only [Item.line, List.mem_append, List.mem_cons, not_or]
      exact ⟨⟨⟨before.noNewline, key.noNewline⟩, between.noNewline⟩, by decide,
        ⟨behind.noNewline, (render_readable value).2.2⟩, after.noNewline⟩

theorem Padding.noEquals (padding : Padding) : equals ∉ padding.text := fun hmem =>
  absurd (padding.isSpace _ hmem) (by decide)

/-- The first character of an entry is that of its key. -/
theorem head?_strip_entry (before : Padding) (key : Key) (a b : StdString) :
    (strip isspace ((before.text ++ key.text ++ a) ++ equals :: b)).head? = key.text.head? := by
  rw [strip_append_cons _ _ (by decide), List.append_assoc,
    List.dropWhile_append_of_pos before.isSpace]
  rcases hkey : key.text with _ | ⟨c, rest⟩
  · exact absurd hkey key.ne_nil
  · have hc : isspace c = false := key.trimmed.1 c (by rw [hkey]; rfl)
    rw [List.cons_append, List.dropWhile_cons_of_neg (by simp [hc])]
    rfl

/-- **What `load` sees in a line** is what was written there: no item is bad, and the entries,
with their keys and values, are those of the items. -/
theorem line_meaning (item : Item) :
    (item.binds = none ∧ Ignored item.line) ∨
    ∃ k v, item.binds = some (k, v) ∧ ¬ Ignored item.line ∧ ¬ Bad item.line ∧
      key item.line = k ∧ parseValue (value item.line) = .ok v := by
  cases item with
  | blank space => exact .inl ⟨rfl, .inl ((strip_eq_nil_iff _).mpr space.isSpace)⟩
  | comment space text noNewline =>
      refine .inl ⟨rfl, .inr ?_⟩
      show (strip isspace (space.text ++ hash :: text)).head? = some hash
      rw [strip_append_cons _ _ (by decide), List.dropWhile_eq_nil_iff.mpr space.isSpace]
      rfl
  | entry before key' between behind value' after =>
      right
      obtain ⟨hne, htrimmed, -⟩ := render_readable value'
      have hequals : equals ∉ before.text ++ key'.text ++ between.text := by
        simp only [List.mem_append, not_or]
        exact ⟨⟨before.noEquals, key'.noEquals⟩, between.noEquals⟩
      have hkey : key (Item.entry before key' between behind value' after).line = key'.text := by
        rw [Item.line, key_append hequals, strip_padded _ before.isSpace between.isSpace,
          strip_trimmed key'.trimmed]
      have hvalue : value (Item.entry before key' between behind value' after).line
          = render value'.value := by
        rw [Item.line, value_append hequals, strip_padded _ behind.isSpace after.isSpace,
          strip_trimmed htrimmed]
      have hentry : ¬ Ignored (Item.entry before key' between behind value' after).line := by
        have hhead := head?_strip_entry before key' between.text
          (behind.text ++ render value'.value ++ after.text)
        rintro (hblank | hcomment)
        · exact key'.ne_nil
            (List.head?_eq_none_iff.mp (hhead.symm.trans (congrArg List.head? hblank)))
        · exact key'.noComment (hhead.symm.trans hcomment)
      refine ⟨key'.text, value'.value, rfl, hentry, ?_, hkey, ?_⟩
      · rintro ⟨-, hbad⟩
        rw [hkey, hvalue] at hbad
        rcases hbad with hbad | hbad | hbad
        · exact hbad (List.mem_append_right _ List.mem_cons_self)
        · exact key'.ne_nil hbad
        · exact hne hbad
      · rw [hvalue, parseValue_render]

/-! ## Files -/

/-- The lines of a file. A last line that is empty is no line. -/
theorem lines_file (items : List Item) (last : Option Item) :
    lines (file items last) = items.map Item.line ++
      if (last.map Item.line).getD [] = [] then [] else [(last.map Item.line).getD []] := by
  induction items with
  | nil =>
      have hlast : newline ∉ (last.map Item.line).getD [] := by
        cases last with
        | none => exact List.not_mem_nil
        | some item => exact newline_notMem_line item
      rw [lines, lines_of_notMem (reading (file [] last)) hlast]
      simp only [reading, Bool.false_or, List.isEmpty_iff, file, List.flatMap_nil, List.nil_append,
        List.map_nil]
  | cons item items ih =>
      have hfile : file (item :: items) last = item.line ++ newline :: file items last := by
        simp [file]
      rw [lines, lines_append (reading (file (item :: items) last)) (newline_notMem_line item)
        hfile, List.map_cons, List.cons_append, ← ih]
      rfl

theorem exists_item_of_mem {items : List Item} {last : Option Item} {line : StdString}
    (hmem : line ∈ lines (file items last)) : ∃ item ∈ items ++ last.toList, item.line = line := by
  rw [lines_file] at hmem
  rcases List.mem_append.mp hmem with hmem | hmem
  · obtain ⟨item, hitem, hline⟩ := List.mem_map.mp hmem
    exact ⟨item, List.mem_append_left _ hitem, hline⟩
  · cases last with
    | none => simp at hmem
    | some item =>
        split_ifs at hmem
        · cases hmem
        · exact ⟨item, by simp, (List.mem_singleton.mp hmem).symm⟩

/-- Only lines without effect can be missing. -/
theorem line_mem_lines {items : List Item} {last : Option Item} {item : Item}
    (hmem : item ∈ items ++ last.toList) (hentry : ¬ Ignored item.line) :
    item.line ∈ lines (file items last) := by
  rw [lines_file]
  rcases List.mem_append.mp hmem with hmem | hmem
  · exact List.mem_append_left _ (List.mem_map_of_mem hmem)
  · obtain rfl := Option.mem_toList.mp hmem
    have hne : item.line ≠ [] := fun hnil => hentry (.inl (by rw [hnil]; rfl))
    exact List.mem_append_right _ (by simp [hne])

/-- **Round trip.** A file that is written for a configuration in this way is loaded as that
configuration, whatever the order of its lines, the white space, the blank lines and the comments
in it, and with or without a newline at its end. -/
theorem load_file (path : String) (items : List Item) (last : Option Item) (config : Config)
    (hwrites : Writes (items ++ last.toList) config) :
    load path (reading (file items last)) = .ok config := by
  have hlines : ∀ line ∈ lines (file items last), ¬ Bad line := by
    intro line hline
    obtain ⟨item, -, rfl⟩ := exists_item_of_mem hline
    rcases line_meaning item with ⟨-, hignored⟩ | ⟨k, v, -, -, hgood, -, -⟩
    · exact fun hbad => hbad.1 hignored
    · exact hgood
  obtain ⟨config', hload, hget⟩ := loadAll_good Config.new 0 hlines
  rw [load_eq path (show (reading (file items last)).is_open = true from rfl)]
  refine hload.trans (congrArg Except.ok (Config.ext_get fun k => ?_))
  obtain ⟨hnone, hsome⟩ := hget k
  cases hlast : lastLine (lines (file items last)) k with
  | none =>
      -- a key without a line is none of the map, as its item would have written one
      rw [hnone hlast]
      rw [lastLine_eq_none_iff] at hlast
      by_contra hne
      obtain ⟨v, hv⟩ := Option.ne_none_iff_exists'.mp (Ne.symm hne)
      obtain ⟨item, hitem, hbinds⟩ := (hwrites k v).mp hv
      rcases line_meaning item with ⟨hother, -⟩ | ⟨k', v', hbinds', hentry, -, hkey, -⟩
      · cases hother.symm.trans hbinds
      · obtain ⟨rfl, -⟩ := Prod.mk.inj (Option.some.inj (hbinds'.symm.trans hbinds))
        exact hlast item.line (line_mem_lines hitem hentry) hentry hkey
  | some line =>
      obtain ⟨hmem, hentry, hkey⟩ := lastLine_some hlast
      obtain ⟨item, hitem, rfl⟩ := exists_item_of_mem hmem
      obtain ⟨v, hv, hconfig⟩ := hsome _ hlast
      rcases line_meaning item with ⟨-, hignored⟩ | ⟨k', v', hbinds, -, -, hkey', hv'⟩
      · exact absurd hignored hentry
      · obtain rfl := Except.ok.inj (hv'.symm.trans hv)
        obtain rfl := hkey'.symm.trans hkey
        exact hconfig.trans ((hwrites _ _).mpr ⟨item, hitem, hbinds⟩).symm

/-- A comment, a string that starts like a number and has a `#` and a `=`, the least integer, and a
last line without a newline. -/
theorem load_file_mixed :
    let space : Padding := ⟨[32, 9], by decide +kernel, by decide⟩
    let host : Key := ⟨[104], by decide, by decide +kernel, by decide, by decide, by decide⟩
    let port : Key :=
      ⟨[112, 32, 35], by decide, by decide +kernel, by decide, by decide, by decide⟩
    let address : Value := ⟨.string [49, 46, 35, 61], by decide +kernel⟩
    let least : Value := ⟨.integer Int64.minValue, trivial⟩
    load "server.conf" (reading (file
        [.comment space [104, 61] (by decide), .entry space host space space address space]
        (some (.entry space port space space least space))))
      = .ok ((Config.new.set host.text address.value).set port.text least.value) := by
  intro space host port address least
  exact load_file "server.conf" _ _ _
    (((Writes.nil.concat_none rfl).concat rfl rfl).concat rfl rfl)

end PacketForge.ConfigLoader
