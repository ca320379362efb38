import PacketForge.Config.ConfigLoader

set_option autoImplicit false

/-! # What a configuration file means

A line is ignored, or it is an entry, or it is bad. This is defined here on the line as it stands
in the file: the key is what is in front of the first `=`, the value what is behind it, both
stripped of white space. `loadLine_eq` says that the code, which trims the line first and then
both parts, comes to the same.

`load_meaning` is the meaning of a whole file, and `load_failing_iff` says what happens when the
file cannot be read to its end.

## How the proofs go

A file without bad lines is an induction over its lines, with any configuration to start from: the
last entry with a key decides (`loadAll_good`). A file with bad lines is split at the first one
(`exists_first_bad`); the lines before it are good, so the loop comes to it with a configuration
that is thrown away, and with its number (`loadAll_bad`). A file whose reading fails is one with
fewer lines: the loop ends as at the end of the file, and the line that was not complete is not
looked at.
-/

namespace PacketForge.ConfigLoader

open Text

/-! ## Lines

`Blank`, `Comment` and `Bad` can be decided, so that a line can be evaluated.
-/

/-- Only white space. -/
def Blank (line : StdString) : Prop := strip isspace line = []

/-- The first character that is not white space is a `#`. -/
def Comment (line : StdString) : Prop := (strip isspace line).head? = some hash

/-- A line without effect. -/
def Ignored (line : StdString) : Prop := Blank line ∨ Comment line

/-- What is in front of the first `=`. -/
def key (line : StdString) : StdString := strip isspace (line.takeWhile (· ≠ equals))

/-- What is behind the first `=`. -/
def value (line : StdString) : StdString := strip isspace (line.dropWhile (· ≠ equals)).tail

/-- A line that is no entry although it is not ignored: it has no `=`, or nothing but white space
in front of it or behind it. -/
def Bad (line : StdString) : Prop :=
  ¬ Ignored line ∧ (equals ∉ line ∨ key line = [] ∨ value line = [])

instance : DecidablePred Ignored := fun line =>
  inferInstanceAs (Decidable (strip isspace line = [] ∨ (strip isspace line).head? = some hash))

instance : DecidablePred Bad := fun line =>
  inferInstanceAs (Decidable (¬ Ignored line ∧ (equals ∉ line ∨ key line = [] ∨ value line = [])))

/-- What `load` says about a bad line. -/
def complaint (line : StdString) (lineNumber : Nat) : String :=
  if equals ∉ line then "Malformed configuration at line " ++ toString lineNumber
  else if key line = [] then
    "Configuration key cannot be empty at line " ++ toString lineNumber
  else "Configuration value cannot be empty at line " ++ toString lineNumber

section

variable {a b : StdString}

theorem all_ne_equals (ha : equals ∉ a) : ∀ x ∈ a, decide (x ≠ equals) = true :=
  fun _ hx => decide_eq_true fun heq => ha (heq ▸ hx)

theorem key_append (ha : equals ∉ a) : key (a ++ equals :: b) = strip isspace a := by
  rw [key, List.takeWhile_append_of_pos (all_ne_equals ha), List.takeWhile_cons_of_neg (by simp),
    List.append_nil]

theorem value_append (ha : equals ∉ a) : value (a ++ equals :: b) = strip isspace b := by
  rw [value, List.dropWhile_append_of_pos (all_ne_equals ha), List.dropWhile_cons_of_neg (by simp)]
  rfl

theorem findIdx?_append_cons (ha : equals ∉ a) :
    (a ++ equals :: b).findIdx? (· = equals) = some a.length := by
  have hnone : a.findIdx? (· = equals) = none := by
    rw [List.findIdx?_eq_none_iff]
    exact fun x hx => decide_eq_false fun heq => ha (heq ▸ hx)
  rw [List.findIdx?_append, hnone]
  simp [List.findIdx?_cons]

end

/-- `parseValue` throws for empty values only, and these are bad lines; so the loop never gets its
exception for another reason. -/
theorem parseValue_eq_ok {text : StdString} (hne : strip isspace text ≠ []) :
    ∃ v, parseValue text = .ok v := by
  have hnot : ¬ (strip isspace text).isEmpty = true := by rwa [List.isEmpty_iff]
  simp only [parseValue, trim_eq, if_neg hnot]
  split_ifs
  · exact ⟨_, rfl⟩
  · exact ⟨_, rfl⟩
  · split
    · split_ifs
      · exact ⟨_, rfl⟩
      · exact ⟨_, rfl⟩
    · exact ⟨_, rfl⟩

/-- **The effect of one line.** It leaves the configuration alone, or is reported with its number,
or sets the value of its key to what `parseValue` infers. -/
theorem loadLine_eq (config : Config) (lineNumber : Nat) (line : StdString) :
    loadLine config lineNumber line =
      if Ignored line then .ok config
      else if Bad line then .error (complaint line lineNumber)
      else (parseValue (value line)).map (config.set (key line)) := by
  have hspace : isspace equals = false := by decide
  simp only [loadLine, trim_eq, List.isEmpty_iff, ← List.head?_eq_getElem?]
  by_cases hblank : strip isspace line = []
  · rw [if_pos hblank, if_pos (.inl hblank)]
  by_cases hcomment : (strip isspace line).head? = some hash
  · rw [if_neg hblank, if_pos hcomment, if_pos (.inr hcomment)]
  have hignored : ¬ Ignored line := not_or.mpr ⟨hblank, hcomment⟩
  rw [if_neg hblank, if_neg hcomment, if_neg hignored]
  by_cases hmem : equals ∈ line
  · -- the parts of the trimmed line, up to white space
    obtain ⟨a, b, rfl, ha⟩ := List.eq_append_cons_of_mem hmem
    have hfirst : equals ∉ a.dropWhile isspace := fun h => ha ((List.dropWhile_suffix _).subset h)
    have hdrop : (a.dropWhile isspace ++ equals :: b.rdropWhile isspace).drop
        ((a.dropWhile isspace).length + 1) = b.rdropWhile isspace := by
      rw [← List.drop_drop, List.drop_left, List.drop_one, List.tail_cons]
    have hbad : Bad (a ++ equals :: b) ↔ strip isspace a = [] ∨ strip isspace b = [] := by
      rw [Bad, key_append ha, value_append ha]
      simp [hignored]
    simp only [strip_append_cons a b hspace, findIdx?_append_cons hfirst, List.take_left, hdrop,
      strip_dropWhile, strip_rdropWhile, hbad, complaint, hmem, not_true_eq_false, if_false,
      key_append ha, value_append ha]
    by_cases hkey : strip isspace a = []
    · rw [if_pos hkey, if_pos (.inl hkey), if_pos hkey]
    by_cases hvalue : strip isspace b = []
    · rw [if_neg hkey, if_pos hvalue, if_pos (.inr hvalue), if_neg hkey]
    rw [if_neg hkey, if_neg hvalue, if_neg (not_or.mpr ⟨hkey, hvalue⟩)]
    rfl
  · have hnone : (strip isspace line).findIdx? (· = equals) = none := by
      rw [List.findIdx?_eq_none_iff]
      intro x hx
      exact decide_eq_false fun heq => hmem ((mem_strip_iff line hspace).mp (heq ▸ hx))
    rw [hnone, if_pos ⟨hignored, .inl hmem⟩, complaint, if_pos hmem]

/-- A line that is not bad is ignored or an entry. -/
theorem loadLine_of_not_bad {line : StdString} (hline : ¬ Bad line) (config : Config)
    (lineNumber : Nat) :
    (Ignored line ∧ loadLine config lineNumber line = .ok config) ∨
    (¬ Ignored line ∧ ∃ v, parseValue (value line) = .ok v ∧
      loadLine config lineNumber line = .ok (config.set (key line) v)) := by
  rw [loadLine_eq]
  by_cases hignored : Ignored line
  · exact .inl ⟨hignored, if_pos hignored⟩
  · have hvalue : strip isspace (value line) ≠ [] := fun hnil =>
      hline ⟨hignored, .inr (.inr ((strip_strip _).symm.trans hnil))⟩
    obtain ⟨v, hv⟩ := parseValue_eq_ok hvalue
    rw [if_neg hignored, if_neg hline, hv]
    exact .inr ⟨hignored, v, rfl, rfl⟩

/-! ## Files

The statements are about lists of lines with any number for the first one, since the induction
goes through the middle of the file.
-/

/-- The last entry with a key, if there is one. It decides what the configuration has for the key.
-/
def lastLine (lines : List StdString) (k : StdString) : Option StdString :=
  (lines.filter fun line => ¬ Ignored line ∧ key line = k).getLast?

theorem lastLine_cons (line : StdString) (lines : List StdString) (k : StdString) :
    lastLine (line :: lines) k = if ¬ Ignored line ∧ key line = k
      then some ((lastLine lines k).getD line) else lastLine lines k := by
  unfold lastLine
  by_cases hentry : ¬ Ignored line ∧ key line = k
  · rw [List.filter_cons_of_pos (by simpa using hentry), if_pos hentry, List.getLast?_cons]
  · rw [List.filter_cons_of_neg (by simpa using hentry), if_neg hentry]

/-- A key has a last line if it has one. -/
theorem lastLine_eq_none_iff (lines : List StdString) (k : StdString) :
    lastLine lines k = none ↔ ∀ line ∈ lines, ¬ Ignored line → key line ≠ k := by
  simp [lastLine]

/-- The last entry with a key is an entry with this key. -/
theorem lastLine_some {lines : List StdString} {k line : StdString}
    (hlast : lastLine lines k = some line) : line ∈ lines ∧ ¬ Ignored line ∧ key line = k := by
  have hmem := List.mem_of_getLast? hlast
  rwa [List.mem_filter, decide_eq_true_eq] at hmem

section

variable {lines : List StdString} {config : Config} {lineNumber : Nat}

/-- The first bad line ends the loop. -/
theorem loadAll_bad {before after : List StdString} {line : StdString}
    (hbefore : ∀ l ∈ before, ¬ Bad l) (hbad : Bad line) :
    loadAll (before ++ line :: after) config lineNumber
      = .error (complaint line (lineNumber + before.length + 1)) := by
  induction before generalizing config lineNumber with
  | nil =>
      rw [List.nil_append, loadAll, loadLine_eq, if_neg hbad.1, if_pos hbad]
      rfl
  | cons l before ih =>
      have hrest : ∀ config', loadAll (before ++ line :: after) config' (lineNumber + 1)
          = .error (complaint line (lineNumber + (l :: before).length + 1)) := by
        intro config'
        rw [ih fun l hl => hbefore l (List.mem_cons_of_mem _ hl), List.length_cons]
        congr 2
        omega
      rw [List.cons_append, loadAll]
      rcases loadLine_of_not_bad (hbefore l List.mem_cons_self) config (lineNumber + 1) with
        ⟨-, hl⟩ | ⟨-, v, -, hl⟩
      · rw [hl]
        exact hrest config
      · rw [hl]
        exact hrest _

/-- Without bad lines the last entry with a key decides. -/
theorem loadAll_good (config : Config) (lineNumber : Nat) (hlines : ∀ line ∈ lines, ¬ Bad line) :
    ∃ config', loadAll lines config lineNumber = .ok config' ∧
      ∀ k, (lastLine lines k = none → config'.get k = config.get k) ∧
        ∀ line, lastLine lines k = some line →
          ∃ v, parseValue (value line) = .ok v ∧ config'.get k = some v := by
  induction lines generalizing config lineNumber with
  | nil => exact ⟨config, rfl, fun k => ⟨fun _ => rfl, fun line hline => by cases hline⟩⟩
  | cons line lines ih =>
      have hrest : ∀ l ∈ lines, ¬ Bad l := fun l hl => hlines l (List.mem_cons_of_mem _ hl)
      rw [loadAll]
      rcases loadLine_of_not_bad (hlines line List.mem_cons_self) config (lineNumber + 1) with
        ⟨hignored, hline⟩ | ⟨hentry, v, hv, hline⟩
      · obtain ⟨config', hload, hget⟩ := ih config (lineNumber + 1) hrest
        refine ⟨config', by rw [hline]; exact hload, fun k => ?_⟩
        rw [lastLine_cons, if_neg fun h => h.1 hignored]
        exact hget k
      · obtain ⟨config', hload, hget⟩ := ih (config.set (key line) v) (lineNumber + 1) hrest
        refine ⟨config', by rw [hline]; exact hload, fun k => ?_⟩
        obtain ⟨hnone, hsome⟩ := hget k
        rw [lastLine_cons]
        by_cases hkey : key line = k
        · -- this line decides unless a later one does
          rw [if_pos ⟨hentry, hkey⟩]
          refine ⟨fun h => (by cases h), fun l hl => ?_⟩
          cases hlast : lastLine lines k with
          | none =>
              rw [hlast] at hl
              obtain rfl := Option.some.inj hl
              subst hkey
              exact ⟨v, hv, (hnone hlast).trans (Config.get_set_self ..)⟩
          | some l' =>
              rw [hlast] at hl
              obtain rfl := Option.some.inj hl
              exact hsome _ hlast
        · rw [if_neg fun h => hkey h.2]
          refine ⟨fun h => ?_, hsome⟩
          rw [hnone h, Config.get_set_ne _ _ _ _ (Ne.symm hkey)]

end

/-- A list of lines with a bad one is split at the first bad line. -/
theorem exists_first_bad {lines : List StdString} (hbad : ∃ line ∈ lines, Bad line) :
    ∃ before line after, lines = before ++ line :: after ∧ (∀ l ∈ before, ¬ Bad l) ∧ Bad line := by
  induction lines with
  | nil =>
      obtain ⟨line, hmem, -⟩ := hbad
      cases hmem
  | cons l lines ih =>
      by_cases hl : Bad l
      · exact ⟨[], l, lines, rfl, nofun, hl⟩
      · have hrest : ∃ line ∈ lines, Bad line := by
          obtain ⟨line, hmem, hline⟩ := hbad
          rcases List.mem_cons.mp hmem with rfl | hmem
          · exact absurd hline hl
          · exact ⟨line, hmem, hline⟩
        obtain ⟨before, line, after, rfl, hbefore, hline⟩ := ih hrest
        exact ⟨l :: before, line, after, rfl, List.forall_mem_cons.mpr ⟨hl, hbefore⟩, hline⟩

theorem loadAll_error_iff (lines : List StdString) (config : Config) (lineNumber : Nat)
    (what : String) :
    loadAll lines config lineNumber = .error what ↔
      ∃ before line after, lines = before ++ line :: after ∧ (∀ l ∈ before, ¬ Bad l) ∧ Bad line ∧
        what = complaint line (lineNumber + before.length + 1) := by
  constructor
  · intro hload
    by_cases hbad : ∃ line ∈ lines, Bad line
    · obtain ⟨before, line, after, rfl, hbefore, hline⟩ := exists_first_bad hbad
      rw [loadAll_bad hbefore hline] at hload
      exact ⟨before, line, after, rfl, hbefore, hline, (Except.error.inj hload).symm⟩
    · push Not at hbad
      obtain ⟨config', hgood, -⟩ := loadAll_good config lineNumber hbad
      rw [hgood] at hload
      cases hload
  · rintro ⟨before, line, after, rfl, hbefore, hline, rfl⟩
    exact loadAll_bad hbefore hline

/-- The lines of a file. -/
def lines (content : StdString) : List StdString := (reading content).lines

/-- **The meaning of a configuration file.** `load` throws if and only if there is a bad line, and
reports the first one with its number. Else the configuration has the keys of the entries, each with
the value of its last entry as `parseValue` reads it. -/
theorem load_meaning (path : String) (content : StdString) :
    ((∃ what, load path (reading content) = .error what) ↔ ∃ line ∈ lines content, Bad line) ∧
    (∀ what, load path (reading content) = .error what ↔
      ∃ before line after, lines content = before ++ line :: after ∧ (∀ l ∈ before, ¬ Bad l) ∧
        Bad line ∧ what = complaint line (before.length + 1)) ∧
    ((∀ line ∈ lines content, ¬ Bad line) → ∃ config, load path (reading content) = .ok config ∧
      ∀ k, (config.contains k = true ↔ ∃ line ∈ lines content, ¬ Ignored line ∧ key line = k) ∧
        ∀ line, lastLine (lines content) k = some line →
          ∃ v, parseValue (value line) = .ok v ∧ config.get k = some v) := by
  rw [load_eq path (show (reading content).is_open = true from rfl)]
  have herror := loadAll_error_iff (lines content) Config.new 0
  simp only [Nat.zero_add] at herror
  refine ⟨⟨?_, ?_⟩, herror, fun hlines => ?_⟩
  · rintro ⟨what, hwhat⟩
    obtain ⟨before, line, after, hsplit, -, hline, -⟩ := (herror what).mp hwhat
    exact ⟨line, hsplit ▸ List.mem_append_right _ List.mem_cons_self, hline⟩
  · intro hbad
    obtain ⟨before, line, after, hsplit, hbefore, hline⟩ := exists_first_bad hbad
    exact ⟨_, (herror _).mpr ⟨before, line, after, hsplit, hbefore, hline, rfl⟩⟩
  · obtain ⟨config, hload, hget⟩ := loadAll_good Config.new 0 hlines
    refine ⟨config, hload, fun k => ⟨?_, (hget k).2⟩⟩
    obtain ⟨hnone, hsome⟩ := hget k
    rw [Config.contains_eq]
    cases hlast : lastLine (lines content) k with
    | none =>
        rw [hnone hlast]
        rw [lastLine_eq_none_iff] at hlast
        refine iff_of_false (by simp) ?_
        rintro ⟨line, hmem, hentry, hkey⟩
        exact hlast line hmem hentry hkey
    | some line =>
        obtain ⟨v, -, hv⟩ := hsome line hlast
        rw [hv]
        exact iff_of_true rfl ⟨line, lastLine_some hlast⟩

/-- How a file that loads is evaluated. -/
theorem exists_of_toOption {result : Except String Config} {k : StdString} {v : ConfigValue}
    (hget : (result.toOption.bind fun config => config.get k) = some v) :
    ∃ config, result = .ok config ∧ config.get k = some v := by
  cases result with
  | error what => cases hget
  | ok config => exact ⟨config, rfl, hget⟩

/-! ## Files that cannot be read -/

/-- **A read failure** ends the loop like the end of the file: `load` throws if and only if one of
the lines that were complete before is bad. -/
theorem load_failing_iff (path : String) (content : StdString)
    (position : Fin (content.length + 1)) :
    (∃ what, load path (failing content position) = .error what) ↔
      ∃ line ∈ (splitLines newline (content.take position)).1, Bad line := by
  have hlines : (failing content position).lines = (splitLines newline (content.take position)).1 :=
    List.append_nil _
  rw [load_eq path (show (failing content position).is_open = true from rfl), hlines]
  constructor
  · rintro ⟨what, hwhat⟩
    obtain ⟨before, line, after, hsplit, -, hline, -⟩ := (loadAll_error_iff _ _ _ what).mp hwhat
    exact ⟨line, hsplit ▸ List.mem_append_right _ List.mem_cons_self, hline⟩
  · intro hbad
    obtain ⟨before, line, after, hsplit, hbefore, hline⟩ := exists_first_bad hbad
    exact ⟨_, (loadAll_error_iff _ _ _ _).mpr ⟨before, line, after, hsplit, hbefore, hline, rfl⟩⟩

/-- A directory opens and gives an empty configuration. After a failure in the second line the first
one decides, although the file overrides it. -/
theorem failing_loads :
    (¬ ∃ what, load "build" (failing [] 0) = .error what) ∧
    let content : StdString := "port=80\nport=9\n".toList.map Char.toUInt8
    let port : StdString := "port".toList.map Char.toUInt8
    (∃ config, load "server.conf" (failing content 13) = .ok config ∧
      config.get port = some (.integer 80)) ∧
    ∃ config, load "server.conf" (reading content) = .ok config ∧
      config.get port = some (.integer 9) := by
  refine ⟨?_, exists_of_toOption (by decide +kernel), exists_of_toOption (by decide +kernel)⟩
  rintro ⟨what, hwhat⟩
  cases (load_eq "build" rfl).symm.trans hwhat

end PacketForge.ConfigLoader
