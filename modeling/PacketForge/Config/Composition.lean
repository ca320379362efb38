import PacketForge.Config.RoundTrip

set_option autoImplicit false

/-! # Putting configuration files together, and writing them again

What a maintainer of configuration files relies on. `load_append`: a file that is appended to
another one overrides it key by key, and its errors are reported with the line numbers of the
whole. `load_crlf`: white space around the lines does not matter, so that neither the indentation
nor the line endings of Windows do. `load_written`: whatever `load` has returned can be written,
one line for each key, and is loaded again as the same configuration.

## How the proofs go

* The lines of two files, one behind the other, are the lines of both, if the first one ends with
  a newline (`lines_concat`). The second half starts with the configuration of the first half, and
  with a line number that matters for the errors only (`loadAll_congr`); starting from a
  configuration is the same as laying the entries over it (`loadAll_overlay`).
* A line is trimmed before anything else is done with it, so two lines that are equal when they
  are stripped do the same (`loadAll_strip`).
* An entry that `load` has read can be written as one line and is read as the same entry
  (`rereadable_of_line`). The key has no `=` because it was in front of the first one, and the
  value, written in its canonical form, is inferred as the same value. A number that does not fit
  was loaded as a string, and is written as that string.
-/

namespace PacketForge.ConfigLoader

open Text

/-! ## Concatenation -/

/-- The file ends with its last line, so that what is appended to it starts a new one. -/
def Closed (content : StdString) : Prop := content = [] ∨ content.getLast? = some newline

/-- The entries of `overrides` in front of those of `base`. -/
def overlay (base overrides : Config) : Config := ⟨fun k => (overrides.get k).or (base.get k)⟩

theorem get_overlay (base overrides : Config) (k : StdString) :
    (overlay base overrides).get k = (overrides.get k).or (base.get k) := rfl

theorem overlay_new (base : Config) : overlay base Config.new = base := rfl

theorem overlay_set (base overrides : Config) (k : StdString) (v : ConfigValue) :
    (overlay base overrides).set k v = overlay base (overrides.set k v) := by
  refine Config.ext_get fun k' => ?_
  rw [get_overlay]
  rcases eq_or_ne k' k with rfl | hne
  · rw [Config.get_set_self, Config.get_set_self, Option.some_or]
  · rw [Config.get_set_ne _ _ _ _ hne, Config.get_set_ne _ _ _ _ hne, get_overlay]

/-- A line does the same to a configuration that is laid over another one. -/
theorem loadLine_overlay (base overrides : Config) (lineNumber : Nat) (line : StdString) :
    loadLine (overlay base overrides) lineNumber line
      = (loadLine overrides lineNumber line).map (overlay base) := by
  rw [loadLine_eq, loadLine_eq]
  split_ifs
  · rfl
  · rfl
  · cases parseValue (value line) with
    | error what => rfl
    | ok v => exact congrArg Except.ok (overlay_set base overrides (key line) v)

theorem loadAll_overlay (base overrides : Config) (lines : List StdString) (lineNumber : Nat) :
    loadAll lines (overlay base overrides) lineNumber
      = (loadAll lines overrides lineNumber).map (overlay base) := by
  induction lines generalizing overrides lineNumber with
  | nil => rfl
  | cons line lines ih =>
      rw [loadAll, loadAll, loadLine_overlay]
      cases loadLine overrides (lineNumber + 1) line with
      | error what => rfl
      | ok overrides' => exact ih overrides' (lineNumber + 1)

theorem loadAll_append (lines lines' : List StdString) (config : Config) (lineNumber : Nat) :
    loadAll (lines ++ lines') config lineNumber
      = (loadAll lines config lineNumber).bind fun config' =>
          loadAll lines' config' (lineNumber + lines.length) := by
  induction lines generalizing config lineNumber with
  | nil => rfl
  | cons line lines ih =>
      rw [List.cons_append, loadAll, loadAll]
      cases loadLine config (lineNumber + 1) line with
      | error what => rfl
      | ok config' =>
          have hnumber : lineNumber + (line :: lines).length = lineNumber + 1 + lines.length := by
            rw [List.length_cons]
            omega
          rw [hnumber]
          exact ih config' (lineNumber + 1)

/-- The line numbers are for the errors only. -/
theorem loadAll_congr {lines : List StdString} (hlines : ∀ line ∈ lines, ¬ Bad line)
    (config : Config) (n n' : Nat) : loadAll lines config n = loadAll lines config n' := by
  induction lines generalizing config n n' with
  | nil => rfl
  | cons line lines ih =>
      have hrest : ∀ l ∈ lines, ¬ Bad l := fun l hl => hlines l (List.mem_cons_of_mem _ hl)
      have hline : loadLine config (n + 1) line = loadLine config (n' + 1) line := by
        rw [loadLine_eq, loadLine_eq, if_neg (hlines line List.mem_cons_self),
          if_neg (hlines line List.mem_cons_self)]
      rw [loadAll, loadAll, hline]
      exact bind_congr fun config' => ih hrest config' (n + 1) (n' + 1)

theorem lines_cons {line : StdString} (hline : newline ∉ line) (rest : StdString) :
    lines (line ++ newline :: rest) = line :: lines rest :=
  lines_append (reading (line ++ newline :: rest)) hline rfl

/-- The lines of two files, one behind the other. -/
theorem lines_concat {a : StdString} (ha : Closed a) (b : StdString) :
    lines (a ++ b) = lines a ++ lines b := by
  induction hlength : a.length using Nat.strong_induction_on generalizing a with
  | _ n ih =>
      subst hlength
      rcases exists_line newline a with hnone | ⟨line, rest, hline, rfl⟩
      · rcases ha with rfl | hlast
        · rfl
        · exact absurd (List.mem_of_getLast? hlast) hnone
      · have hrest : Closed rest := by
          cases rest with
          | nil => exact .inl rfl
          | cons x rest =>
              refine .inr ?_
              rcases ha with hnil | hlast
              · simp at hnil
              · rw [List.getLast?_append, List.getLast?_cons_cons] at hlast
                simpa using hlast
        have hlt : rest.length < (line ++ newline :: rest).length := by
          rw [List.length_append, List.length_cons]
          omega
        rw [List.append_assoc, List.cons_append, lines_cons hline, lines_cons hline,
          ih _ hlt hrest rfl, List.cons_append]

theorem load_reading (path : String) (content : StdString) :
    load path (reading content) = loadAll (lines content) Config.new 0 :=
  load_eq path (show (reading content).is_open = true from rfl)

/-- **Appending a file.** If the first file ends with a newline: its first error stays the first
one; else the entries of the second file override those of the first one; and an error of the
second file is reported with the number that its line has in the whole. -/
theorem load_append (path : String) {a : StdString} (ha : Closed a) (b : StdString) :
    (∀ what, load path (reading a) = .error what → load path (reading (a ++ b)) = .error what) ∧
    ∀ base, load path (reading a) = .ok base →
      (∀ overrides, load path (reading b) = .ok overrides →
        load path (reading (a ++ b)) = .ok (overlay base overrides)) ∧
      ∀ before line after, lines b = before ++ line :: after → (∀ l ∈ before, ¬ Bad l) →
        Bad line → load path (reading b) = .error (complaint line (before.length + 1)) ∧
          load path (reading (a ++ b))
            = .error (complaint line ((lines a).length + before.length + 1)) := by
  simp only [load_reading, lines_concat ha, loadAll_append, Nat.zero_add]
  refine ⟨fun what hwhat => ?_, fun base hbase => ⟨fun overrides hover => ?_, ?_⟩⟩
  · rw [hwhat]
    rfl
  · -- an error depends on the lines only, so that the line numbers do not matter here
    have hgood : ∀ line ∈ lines b, ¬ Bad line := by
      intro line hmem hbad
      obtain ⟨before, line, after, hsplit, hbefore, hline⟩ := exists_first_bad ⟨line, hmem, hbad⟩
      rw [hsplit, loadAll_bad hbefore hline] at hover
      cases hover
    have hshift : loadAll (lines b) Config.new (lines a).length = .ok overrides := by
      rw [← hover]
      exact loadAll_congr hgood Config.new _ _
    rw [hbase]
    have hoverlay := loadAll_overlay base Config.new (lines b) (lines a).length
    rw [overlay_new, hshift] at hoverlay
    exact hoverlay
  · intro before line after hsplit hbefore hline
    rw [hsplit, hbase]
    have hfirst : loadAll (before ++ line :: after) Config.new 0 = _ := loadAll_bad hbefore hline
    rw [Nat.zero_add] at hfirst
    exact ⟨hfirst, loadAll_bad hbefore hline⟩

/-- A base configuration and a file that overrides one of its keys; then a file with an error. -/
theorem load_append_port :
    let base : StdString := "host=a\nport=80\n".toList.map Char.toUInt8
    let overrides : StdString := "port=9".toList.map Char.toUInt8
    let port : StdString := "port".toList.map Char.toUInt8
    (∃ config, load "server.conf" (reading (base ++ overrides)) = .ok config ∧
      config.get port = some (.integer 9)) ∧
    load "server.conf" (reading (base ++ port)) = .error "Malformed configuration at line 3" := by
  intro base overrides port
  have hclosed : Closed base := .inr (by decide +kernel)
  obtain ⟨lower, hlower, -⟩ : ∃ config, load "server.conf" (reading base) = .ok config ∧
      config.get port = some (.integer 80) := exists_of_toOption (by decide +kernel)
  obtain ⟨upper, hupper, hport⟩ : ∃ config, load "server.conf" (reading overrides) = .ok config ∧
      config.get port = some (.integer 9) := exists_of_toOption (by decide +kernel)
  obtain ⟨hoverrides, herror⟩ := (load_append "server.conf" hclosed overrides).2 lower hlower
  obtain ⟨-, hbad⟩ := (load_append "server.conf" hclosed port).2 lower hlower
  refine ⟨⟨_, hoverrides upper hupper, ?_⟩, ?_⟩
  · rw [get_overlay, hport, Option.some_or]
  · have hlast := (hbad [] port [] (by decide +kernel) nofun (by decide +kernel)).2
    have hnumber : complaint port ((lines base).length + ([] : List StdString).length + 1)
        = "Malformed configuration at line 3" := by decide +kernel
    rw [hlast, hnumber]

/-! ## White space -/

/-- A file with the line endings of Windows: `'\r'` in front of every newline. -/
def crlf (content : StdString) : StdString :=
  content.flatMap fun b => if b = newline then [13, newline] else [b]

/-- The code trims a line before it looks at it. -/
theorem loadLine_strip {line line' : StdString} (hline : strip isspace line = strip isspace line')
    (config : Config) (lineNumber : Nat) :
    loadLine config lineNumber line = loadLine config lineNumber line' := by
  simp only [loadLine, trim_eq, hline]

theorem loadAll_strip {lines lines' : List StdString}
    (hlines : lines.map (strip isspace) = lines'.map (strip isspace)) (config : Config)
    (lineNumber : Nat) : loadAll lines config lineNumber = loadAll lines' config lineNumber := by
  induction lines generalizing lines' config lineNumber with
  | nil =>
      rw [List.map_nil] at hlines
      rw [List.map_eq_nil_iff.mp hlines.symm]
  | cons line lines ih =>
      cases lines' with
      | nil => cases hlines
      | cons line' lines' =>
          rw [List.map_cons, List.map_cons, List.cons.injEq] at hlines
          rw [loadAll, loadAll, loadLine_strip hlines.1]
          exact bind_congr fun config' => ih hlines.2 config' (lineNumber + 1)

theorem crlf_of_notMem {line : StdString} (hline : newline ∉ line) : crlf line = line := by
  induction line with
  | nil => rfl
  | cons b line ih =>
      rw [List.mem_cons, not_or] at hline
      rw [crlf, List.flatMap_cons, if_neg (Ne.symm hline.1)]
      exact congrArg (b :: ·) (ih hline.2)

theorem crlf_append {line : StdString} (hline : newline ∉ line) (rest : StdString) :
    crlf (line ++ newline :: rest) = (line ++ [13]) ++ newline :: crlf rest := by
  rw [crlf, List.flatMap_append, List.flatMap_cons, if_pos rfl]
  show crlf line ++ ([13, newline] ++ crlf rest) = _
  rw [crlf_of_notMem hline]
  simp

/-- The lines are the same up to the `'\r'`, which is white space. -/
theorem lines_crlf (content : StdString) :
    (lines (crlf content)).map (strip isspace) = (lines content).map (strip isspace) := by
  induction hlength : content.length using Nat.strong_induction_on generalizing content with
  | _ n ih =>
      subst hlength
      rcases exists_line newline content with hnone | ⟨line, rest, hline, rfl⟩
      · rw [crlf_of_notMem hnone]
      · have hreturn : newline ∉ line ++ [13] := by
          rw [List.mem_append, List.mem_singleton, not_or]
          exact ⟨hline, by decide⟩
        have hlt : rest.length < (line ++ newline :: rest).length := by
          rw [List.length_append, List.length_cons]
          omega
        have hspace : ∀ b ∈ [(13 : UInt8)], isspace b = true := by
          intro b hb
          rw [List.mem_singleton.mp hb]
          decide
        have hstrip : strip isspace (line ++ [13]) = strip isspace line :=
          strip_padded (u := []) line nofun hspace
        rw [crlf_append hline, lines_cons hreturn, lines_cons hline, List.map_cons, List.map_cons,
          hstrip, ih _ hlt rest rfl]

/-- **White space around the lines does not matter.** Files with the same lines up to white space
at their ends give the same configuration or the same error, and so does a file with the line
endings of Windows. -/
theorem load_crlf (path : String) :
    (∀ a b, (lines a).map (strip isspace) = (lines b).map (strip isspace) →
      load path (reading a) = load path (reading b)) ∧
    ∀ content, load path (reading (crlf content)) = load path (reading content) := by
  have hsame : ∀ a b, (lines a).map (strip isspace) = (lines b).map (strip isspace) →
      load path (reading a) = load path (reading b) := by
    intro a b hlines
    rw [load_reading, load_reading]
    exact loadAll_strip hlines Config.new 0
  exact ⟨hsame, fun content => hsame _ _ (lines_crlf content)⟩

/-! ## Writing what was loaded -/

/-- The line of an entry. -/
def entryLine (entry : StdString × ConfigValue) : StdString :=
  entry.1 ++ equals :: render entry.2

/-- The file with these entries. -/
def written (entries : List (StdString × ConfigValue)) : StdString :=
  entries.flatMap fun entry => entryLine entry ++ [newline]

/-- An entry that is read as it is written. The conditions on the key and on the text of the value
are those under which the line `key=value` is an entry with this key and this text, and the last
one says that the type is inferred again. -/
structure Rereadable (entry : StdString × ConfigValue) : Prop where
  key_ne_nil : entry.1 ≠ []
  key_strip : strip isspace entry.1 = entry.1
  key_noComment : entry.1.head? ≠ some hash
  key_noEquals : equals ∉ entry.1
  key_noNewline : newline ∉ entry.1
  value_ne_nil : render entry.2 ≠ []
  value_strip : strip isspace (render entry.2) = render entry.2
  value_noNewline : newline ∉ render entry.2
  value_inferred : inferred (render entry.2) = entry.2

section

variable {line : StdString} {entry : StdString × ConfigValue}

/-- The parts of a line that is an entry. -/
theorem exists_parts (hentry : ¬ Ignored line) (hgood : ¬ Bad line) :
    ∃ a b, line = a ++ equals :: b ∧ equals ∉ a ∧ key line = strip isspace a ∧
      value line = strip isspace b ∧ strip isspace a ≠ [] ∧ strip isspace b ≠ [] := by
  have hparts : ¬ (equals ∉ line ∨ key line = [] ∨ value line = []) := fun h => hgood ⟨hentry, h⟩
  rw [not_or, not_or, not_not] at hparts
  obtain ⟨hmem, hkey, hvalue⟩ := hparts
  obtain ⟨a, b, rfl, ha⟩ := List.eq_append_cons_of_mem hmem
  rw [key_append ha] at hkey
  rw [value_append ha] at hvalue
  exact ⟨a, b, rfl, ha, key_append ha, value_append ha, hkey, hvalue⟩

/-- A stripped text starts where the text does after its white space. -/
theorem head?_strip {a : StdString} (hne : strip isspace a ≠ []) :
    (strip isspace a).head? = (a.dropWhile isspace).head? := by
  obtain ⟨rest, hrest⟩ := List.rdropWhile_prefix isspace (l := a.dropWhile isspace)
  rw [← hrest]
  exact (List.head?_append_of_ne_nil _ hne).symm

/-- What `load` infers from a text is written as that text, or as one with the same meaning. -/
theorem inferred_rereadable {v : StdString} (hne : v ≠ []) (hstrip : strip isspace v = v)
    (hnewline : newline ∉ v) :
    render (inferred v) ≠ [] ∧ strip isspace (render (inferred v)) = render (inferred v) ∧
      newline ∉ render (inferred v) ∧ inferred (render (inferred v)) = inferred v := by
  have hvalue : ∀ value : Value, render value.value ≠ [] ∧
      strip isspace (render value.value) = render value.value ∧ newline ∉ render value.value ∧
      inferred (render value.value) = value.value := by
    intro value
    obtain ⟨hne, htrimmed, hnewline⟩ := render_readable value
    exact ⟨hne, strip_trimmed htrimmed, hnewline, inferred_render value⟩
  cases hinferred : inferred v with
  | boolean b => exact hvalue ⟨.boolean b, trivial⟩
  | integer n => exact hvalue ⟨.integer n, trivial⟩
  | string s =>
      -- a string is the text itself, also where it looks like a number that does not fit
      obtain rfl : v = s := by
        unfold inferred at hinferred
        split_ifs at hinferred
        exact ConfigValue.string.inj hinferred
      exact ⟨hne, hstrip, hnewline, hinferred⟩

/-- **The entry of a line can be written.** What `load` makes of a line meets all conditions on an
entry, whatever white space and whatever form of a number the line had. -/
theorem rereadable_of_line (hline : newline ∉ line) (hentry : ¬ Ignored line) (hgood : ¬ Bad line) :
    Rereadable (key line, inferred (value line)) := by
  obtain ⟨a, b, rfl, ha, hkey, hvalue, hkeyne, hvaluene⟩ := exists_parts hentry hgood
  have hsub : ∀ l : StdString, strip isspace l ⊆ l := by
    intro l x hx
    exact (List.dropWhile_suffix _).subset ((List.rdropWhile_prefix isspace _).subset hx)
  have hnotMem : newline ∉ a ∧ newline ∉ b := by
    rw [List.mem_append, List.mem_cons, not_or, not_or] at hline
    exact ⟨hline.1, hline.2.2⟩
  obtain ⟨hne, hstrip, hnewline, hinferred⟩ := inferred_rereadable hvaluene (strip_strip b)
    fun hmem => hnotMem.2 (hsub b hmem)
  rw [hkey, hvalue]
  refine ⟨hkeyne, strip_strip a, ?_, fun hmem => ha (hsub a hmem),
    fun hmem => hnotMem.1 (hsub a hmem), hne, hstrip, hnewline, hinferred⟩
  -- the line would be a comment
  intro hhead
  rw [head?_strip hkeyne] at hhead
  refine hentry (.inr ?_)
  rw [Comment, strip_append_cons _ _ (by decide), List.head?_append, hhead, Option.some_or]

theorem Rereadable.noNewline (h : Rereadable entry) : newline ∉ entryLine entry := by
  rw [entryLine, List.mem_append, List.mem_cons, not_or, not_or]
  exact ⟨h.key_noNewline, by decide, h.value_noNewline⟩

/-- **What `load` sees in its line**: no comment, no error, the key of the entry and a text from
which the value is inferred. -/
theorem Rereadable.meaning (h : Rereadable entry) : ¬ Ignored (entryLine entry) ∧
    ¬ Bad (entryLine entry) ∧ key (entryLine entry) = entry.1 ∧
    parseValue (value (entryLine entry)) = .ok entry.2 := by
  have hkey : key (entryLine entry) = entry.1 := by
    rw [entryLine, key_append h.key_noEquals, h.key_strip]
  have hvalue : value (entryLine entry) = render entry.2 := by
    rw [entryLine, value_append h.key_noEquals, h.value_strip]
  have hhead : (strip isspace (entryLine entry)).head? = entry.1.head? := by
    have hfirst : strip isspace entry.1 ≠ [] := h.key_strip.symm ▸ h.key_ne_nil
    have hdrop := head?_strip hfirst
    rw [h.key_strip] at hdrop
    rw [entryLine, strip_append_cons _ _ (by decide), hdrop]
    refine List.head?_append_of_ne_nil _ fun hnil => ?_
    rw [hnil] at hdrop
    exact h.key_ne_nil (List.head?_eq_none_iff.mp hdrop)
  have hentry : ¬ Ignored (entryLine entry) := by
    rintro (hblank | hcomment)
    · rw [Blank] at hblank
      rw [hblank] at hhead
      exact h.key_ne_nil (List.head?_eq_none_iff.mp hhead.symm)
    · exact h.key_noComment (hhead.symm.trans hcomment)
  refine ⟨hentry, ?_, hkey, ?_⟩
  · rintro ⟨-, hbad⟩
    rw [hkey, hvalue] at hbad
    rcases hbad with hbad | hbad | hbad
    · exact hbad (List.mem_append_right _ List.mem_cons_self)
    · exact h.key_ne_nil hbad
    · exact h.value_ne_nil hbad
  · rw [hvalue, parseValue_eq h.value_ne_nil h.value_strip, h.value_inferred]

end

theorem lines_written {entries : List (StdString × ConfigValue)}
    (h : ∀ entry ∈ entries, Rereadable entry) :
    lines (written entries) = entries.map entryLine := by
  induction entries with
  | nil => rfl
  | cons entry entries ih =>
      have hwritten : written (entry :: entries)
          = entryLine entry ++ newline :: written entries := by
        simp [written]
      rw [hwritten, lines_cons (h entry List.mem_cons_self).noNewline, List.map_cons,
        ih fun e he => h e (List.mem_cons_of_mem _ he)]

theorem newline_notMem_of_mem {content line : StdString} (hmem : line ∈ lines content) :
    newline ∉ line := by
  induction hlength : content.length using Nat.strong_induction_on generalizing content with
  | _ n ih =>
      subst hlength
      rcases exists_line newline content with hnone | ⟨first, rest, hfirst, rfl⟩
      · rw [lines, lines_of_notMem _ hnone] at hmem
        split_ifs at hmem
        · cases hmem
        · rw [List.mem_singleton.mp hmem]
          exact hnone
      · have hlt : rest.length < (first ++ newline :: rest).length := by
          rw [List.length_append, List.length_cons]
          omega
        rw [lines_cons hfirst] at hmem
        rcases List.mem_cons.mp hmem with rfl | hrest
        · exact hfirst
        · exact ih _ hlt hrest rfl

/-- The entries of a configuration for a list of different keys have different keys. -/
theorem nodup_keys {keys : List StdString} (hkeys : keys.Nodup) (config : Config) :
    ((keys.filterMap fun k => (config.get k).map (k, ·)).map Prod.fst).Nodup := by
  have hsub : ((keys.filterMap fun k => (config.get k).map (k, ·)).map Prod.fst).Sublist keys := by
    clear hkeys
    induction keys with
    | nil => exact List.Sublist.refl _
    | cons k keys ih =>
        cases hget : config.get k with
        | none =>
            rw [List.filterMap_cons_none (by rw [hget]; rfl)]
            exact ih.cons k
        | some v =>
            rw [List.filterMap_cons_some (by rw [hget]; rfl), List.map_cons]
            exact ih.cons_cons k
  exact hkeys.sublist hsub

/-- The lines of its entries give a configuration back. -/
theorem loadAll_entries {entries : List (StdString × ConfigValue)} {config : Config}
    (h : ∀ entry ∈ entries, Rereadable entry)
    (hmem : ∀ k v, config.get k = some v ↔ (k, v) ∈ entries) :
    loadAll (entries.map entryLine) Config.new 0 = .ok config := by
  have hlines : ∀ line ∈ entries.map entryLine, ¬ Bad line := by
    intro line hline
    obtain ⟨entry, he, rfl⟩ := List.mem_map.mp hline
    exact (h entry he).meaning.2.1
  obtain ⟨config', hload, hget⟩ := loadAll_good Config.new 0 hlines
  refine hload.trans (congrArg Except.ok (Config.ext_get fun k => ?_))
  obtain ⟨hnone, hsome⟩ := hget k
  cases hlast : lastLine (entries.map entryLine) k with
  | none =>
      rw [hnone hlast]
      rw [lastLine_eq_none_iff] at hlast
      by_contra hne
      obtain ⟨v, hv⟩ := Option.ne_none_iff_exists'.mp (Ne.symm hne)
      have he := (hmem k v).mp hv
      obtain ⟨hignored, -, hkey, -⟩ := (h _ he).meaning
      exact hlast _ (List.mem_map_of_mem he) hignored hkey
  | some line =>
      obtain ⟨hline, -, hkey⟩ := lastLine_some hlast
      obtain ⟨⟨k', v⟩, he, rfl⟩ := List.mem_map.mp hline
      obtain ⟨w, hparse, hw⟩ := hsome _ hlast
      obtain ⟨-, -, hkey', hparse'⟩ := (h _ he).meaning
      obtain rfl := Except.ok.inj (hparse'.symm.trans hparse)
      obtain rfl : k' = k := hkey'.symm.trans hkey
      exact hw.trans ((hmem k' v).mpr he).symm

/-- **Whatever was loaded can be written.** The configuration of every file that loads has
finitely many entries; a file with one line for each, `key=value`, is loaded as the same
configuration, wherever it is stored. This includes the numbers that do not fit into 64 bits,
which were loaded as strings. -/
theorem load_written {path : String} {content : StdString} {config : Config}
    (hload : load path (reading content) = .ok config) :
    ∃ entries : List (StdString × ConfigValue), (entries.map Prod.fst).Nodup ∧
      (∀ k v, config.get k = some v ↔ (k, v) ∈ entries) ∧
      ∀ path', load path' (reading (written entries)) = .ok config := by
  rw [load_reading] at hload
  have hlines : ∀ line ∈ lines content, ¬ Bad line := by
    intro line hmem hbad
    obtain ⟨before, line, after, hsplit, hbefore, hline⟩ := exists_first_bad ⟨line, hmem, hbad⟩
    rw [hsplit, loadAll_bad hbefore hline] at hload
    cases hload
  obtain ⟨config', hload', hget⟩ := loadAll_good Config.new 0 hlines
  obtain rfl := Except.ok.inj (hload'.symm.trans hload)
  -- what the configuration has is what the last line of the key says
  have hentry : ∀ k v, config'.get k = some v → ∃ line ∈ lines content, ¬ Ignored line ∧
      key line = k ∧ inferred (value line) = v := by
    intro k v hv
    obtain ⟨hnone, hsome⟩ := hget k
    cases hlast : lastLine (lines content) k with
    | none =>
        rw [hnone hlast] at hv
        cases hv
    | some line =>
        obtain ⟨w, hparse, hw⟩ := hsome line hlast
        obtain ⟨hmem, hignored, hkey⟩ := lastLine_some hlast
        obtain ⟨a, b, -, -, -, hvalue, -, hne⟩ := exists_parts hignored (hlines line hmem)
        rw [hvalue, parseValue_eq hne (strip_strip b)] at hparse
        refine ⟨line, hmem, hignored, hkey, ?_⟩
        rw [hvalue, Except.ok.inj hparse]
        exact Option.some.inj (hw.symm.trans hv)
  let keys := (((lines content).filter fun line => ¬ Ignored line).map key).dedup
  let entries := keys.filterMap fun k => (config'.get k).map (k, ·)
  have hmem : ∀ k v, config'.get k = some v ↔ (k, v) ∈ entries := by
    intro k v
    constructor
    · intro hv
      obtain ⟨line, hline, hignored, hkey, -⟩ := hentry k v hv
      refine List.mem_filterMap.mpr ⟨k, List.mem_dedup.mpr ?_, by rw [hv]; rfl⟩
      exact List.mem_map.mpr ⟨line, List.mem_filter.mpr ⟨hline, decide_eq_true hignored⟩, hkey⟩
    · intro he
      obtain ⟨k', -, heq⟩ := List.mem_filterMap.mp he
      obtain ⟨v', hv', heq⟩ := Option.map_eq_some_iff.mp heq
      cases heq
      exact hv'
  have hrereadable : ∀ entry ∈ entries, Rereadable entry := by
    rintro ⟨k, v⟩ he
    obtain ⟨line, hline, hignored, rfl, rfl⟩ := hentry k v ((hmem k v).mpr he)
    exact rereadable_of_line (newline_notMem_of_mem hline) hignored (hlines line hline)
  refine ⟨entries, ?_, hmem, fun path' => ?_⟩
  · exact nodup_keys (List.nodup_dedup _) config'
  · rw [load_reading, lines_written hrereadable]
    exact loadAll_entries hrereadable hmem

/-- A number that does not fit overrides one that does. -/
theorem load_written_overflow :
    let content : StdString := "n=7\n# n=8\n n = 9223372036854775808 ".toList.map Char.toUInt8
    let n : StdString := "n".toList.map Char.toUInt8
    let number : StdString := "9223372036854775808".toList.map Char.toUInt8
    ∃ config entries, load "server.conf" (reading content) = .ok config ∧
      (n, .string number) ∈ entries ∧
        load "copy.conf" (reading (written entries)) = .ok config := by
  intro content n number
  obtain ⟨config, hload, hn⟩ : ∃ config, load "server.conf" (reading content) = .ok config ∧
      config.get n = some (.string number) := exists_of_toOption (by decide +kernel)
  obtain ⟨entries, -, hentries, hwritten⟩ := load_written hload
  exact ⟨config, entries, hload, (hentries n _).mp hn, hwritten "copy.conf"⟩

end PacketForge.ConfigLoader
