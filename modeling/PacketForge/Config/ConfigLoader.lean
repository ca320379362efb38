import PacketForge.Config.Config
import PacketForge.Lib.Text

set_option autoImplicit false

/-! # Loading a configuration (`config/config_loader.cpp`)

`ConfigLoader.load` reads a file line by line. What the file gives is in `Ifstream`: whether it
opens, the bytes that reading gives, and whether these end with the end of the file or with a read
error.

The second half says the same without indices and streams: `trim_eq` and `load_eq`.

## How the proofs go

The loops of `trim` run over indices; `trimBegin` drops the white space in front, `trimEnd` what
is behind, and each is an induction along the loop with the part of the text that is between the
indices. The loop of `load` calls `std::getline` until the stream is at its end: `Ifstream.lines`
is the list of the lines that it gets, by recursion on the file, and `loadLines_eq` says that the
loop is a recursion over this list (`loadAll`). All other modules work with `strip` and `loadAll`.
-/

namespace PacketForge.ConfigLoader

open Text

/-! ## The code

Exceptions are results: `load` and `parseValue` give the text of `what()`, and `std::stoll` its
two exceptions.
-/

/-- `'\n'`. -/
def newline : UInt8 := 10

/-- `'='`. -/
def equals : UInt8 := 61

/-- `'#'`. -/
def hash : UInt8 := 35

def minus : UInt8 := 45

def plus : UInt8 := 43

/-- `"true"`. -/
def trueText : StdString := ['t', 'r', 'u', 'e'].map Char.toUInt8

/-- `"false"`. -/
def falseText : StdString := ['f', 'a', 'l', 's', 'e'].map Char.toUInt8

/-- `std::isspace` in the C locale. -/
def isspace (b : UInt8) : Bool := b = 32 || (9 ≤ b && b ≤ 13)

/-- The first loop of `trim`. -/
def trimBegin (value : StdString) (begin : Nat) : Nat :=
  if _h : begin < value.length ∧ (value[begin]?).any isspace then trimBegin value (begin + 1)
  else begin
termination_by value.length - begin

/-- The second loop of `trim`. -/
def trimEnd (value : StdString) (begin «end» : Nat) : Nat :=
  if _h : «end» > begin ∧ (value[«end» - 1]?).any isspace then trimEnd value begin («end» - 1)
  else «end»
termination_by «end»

/-- `trim`. -/
def trim (value : StdString) : StdString :=
  let begin := trimBegin value 0
  let «end» := trimEnd value begin value.length
  (value.drop begin).take («end» - begin)

/-- What `std::stoll` throws. -/
inductive StollError where
  | invalid_argument
  | out_of_range
  deriving DecidableEq, Repr

/-- `std::stoll(str, &position)` for `long long` of 64 bits: the number and the position behind it.
White space in front is skipped, then come an optional sign and as many digits as there are. -/
def stoll (str : StdString) : Except StollError (Int64 × Nat) :=
  let blanks := (str.takeWhile isspace).length
  let negative : Bool := str[blanks]? = some minus
  let sign := if str[blanks]? = some minus ∨ str[blanks]? = some plus then 1 else 0
  let digits := (str.drop (blanks + sign)).takeWhile isDigit
  if digits = [] then .error .invalid_argument
  else
    let number : Int := if negative then -(ofDecimal digits : Int) else ofDecimal digits
    if number < -2 ^ 63 ∨ 2 ^ 63 ≤ number then .error .out_of_range
    else .ok (Int64.ofInt number, blanks + sign + digits.length)

/-- `parseValue`: the value, or the `what()` of the exception. The handler of the second `try` block
takes all exceptions of `std::stoll`. -/
def parseValue (text : StdString) : Except String ConfigValue :=
  let value := trim text
  if value.isEmpty then .error "Configuration value cannot be empty"
  else if value = trueText then .ok (.boolean true)
  else if value = falseText then .ok (.boolean false)
  else
    match stoll value with
    | .ok (integerValue, position) =>
      if position = value.length then .ok (.integer integerValue) else .ok (.string value)
    | .error _ => .ok (.string value)

/-- A `std::ifstream`: whether the file was opened, what reading still gives, and whether a read
error follows it instead of the end of the file. -/
structure Ifstream where
  is_open : Bool
  rest : StdString
  fails : Bool

/-- `std::getline`: the next line, or `none` where the stream converts to `false` afterwards. A line
may end with the file, if it is not empty. A read error sets `badbit`, also within a line. -/
def getline (file : Ifstream) : Option (StdString × Ifstream) :=
  match file.rest.dropWhile (· ≠ newline) with
  | _ :: rest => some (file.rest.takeWhile (· ≠ newline), { file with rest := rest })
  | [] =>
    if file.fails || file.rest.isEmpty then none else some (file.rest, { file with rest := [] })

theorem getline_lt {file file' : Ifstream} {line : StdString}
    (hline : getline file = some (line, file')) : file'.rest.length < file.rest.length := by
  unfold getline at hline
  split at hline
  · next rest hrest =>
      obtain ⟨-, rfl⟩ := Prod.mk.inj (Option.some.inj hline)
      have hle := (List.dropWhile_suffix (l := file.rest) (· ≠ newline)).length_le
      rw [hrest, List.length_cons] at hle
      exact hle
  · split_ifs at hline with hempty
    obtain ⟨-, rfl⟩ := Prod.mk.inj (Option.some.inj hline)
    rw [Bool.or_eq_true, not_or, List.isEmpty_iff] at hempty
    exact List.length_pos_of_ne_nil hempty.2

/-- The body of the loop of `load`; `continue` leaves the configuration as it is. -/
def loadLine (config : Config) (lineNumber : Nat) (line : StdString) : Except String Config :=
  let trimmedLine := trim line
  if trimmedLine.isEmpty then .ok config
  else if trimmedLine[0]? = some hash then .ok config
  else
    match trimmedLine.findIdx? (· = equals) with
    | none => .error ("Malformed configuration at line " ++ toString lineNumber)
    | some separator => do
      let key := trim (trimmedLine.take separator)
      let value := trim (trimmedLine.drop (separator + 1))
      if key.isEmpty then
        .error ("Configuration key cannot be empty at line " ++ toString lineNumber)
      else if value.isEmpty then
        .error ("Configuration value cannot be empty at line " ++ toString lineNumber)
      else
        let parsed ← parseValue value
        .ok (config.set key parsed)

/-- The loop of `load`. -/
def loadLines (file : Ifstream) (config : Config) (lineNumber : Nat) : Except String Config :=
  match hline : getline file with
  | none => .ok config
  | some (line, file') => do
    let config ← loadLine config (lineNumber + 1) line
    loadLines file' config (lineNumber + 1)
termination_by file.rest.length
decreasing_by exact getline_lt hline

/-- `ConfigLoader::load`, with `file` for the stream that is opened on the path: the configuration,
or the `what()` of the exception. -/
def load (path : String) (file : Ifstream) : Except String Config :=
  if !file.is_open then .error ("Failed to open configuration file: " ++ path)
  else loadLines file Config.new 0

/-- The stream of a file that is read to its end. -/
def reading (content : StdString) : Ifstream := ⟨true, content, false⟩

/-- The stream of a file whose reading fails at a position. -/
def failing (content : StdString) (position : Fin (content.length + 1)) : Ifstream :=
  ⟨true, content.take position, true⟩

/-! ## Trimming -/

theorem drop_trimBegin (value : StdString) (begin : Nat) :
    value.drop (trimBegin value begin) = (value.drop begin).dropWhile isspace := by
  induction begin using trimBegin.induct value with
  | case1 begin h ih =>
      obtain ⟨hlt, hspace⟩ := h
      have hhead : isspace value[begin] = true := by
        rwa [List.getElem?_eq_getElem hlt, Option.any_some] at hspace
      rw [trimBegin, dif_pos ⟨hlt, hspace⟩, ih, List.drop_eq_getElem_cons hlt,
        List.dropWhile_cons_of_pos hhead]
  | case2 begin h =>
      rw [trimBegin, dif_neg h]
      cases hdrop : value.drop begin with
      | nil => rfl
      | cons b rest =>
          have hlt : begin < value.length := by
            by_contra hge
            rw [List.drop_eq_nil_of_le (not_lt.mp hge)] at hdrop
            cases hdrop
          rw [List.drop_eq_getElem_cons hlt] at hdrop
          obtain ⟨rfl, -⟩ := List.cons.inj hdrop
          rw [List.dropWhile_cons_of_neg]
          intro hspace
          exact h ⟨hlt, by rwa [List.getElem?_eq_getElem hlt]⟩

/-- What the second loop looks at: the last element between the two indices. -/
theorem take_succ_drop (value : StdString) {begin «end» : Nat} (hlt : begin < «end») {b : UInt8}
    (hb : value[«end» - 1]? = some b) :
    (value.drop begin).take («end» - begin)
      = (value.drop begin).take («end» - 1 - begin) ++ [b] := by
  have hsucc : «end» - begin = («end» - 1 - begin) + 1 := by omega
  have hget : (value.drop begin)[«end» - 1 - begin]? = some b := by
    rw [List.getElem?_drop, show begin + («end» - 1 - begin) = «end» - 1 by omega, hb]
  rw [hsucc, List.take_add_one, hget]
  rfl

/-- The second loop leaves out the white space at the end of what is between the two indices. -/
theorem take_trimEnd (value : StdString) (begin «end» : Nat) (hlength : «end» ≤ value.length) :
    (value.drop begin).take (trimEnd value begin «end» - begin)
      = ((value.drop begin).take («end» - begin)).rdropWhile isspace := by
  induction «end» using trimEnd.induct value begin with
  | case1 «end» h ih =>
      obtain ⟨hlt, hspace⟩ := h
      have hb := List.getElem?_eq_getElem (show «end» - 1 < value.length by omega)
      have hlast : isspace value[«end» - 1] = true := by
        rwa [hb, Option.any_some] at hspace
      rw [trimEnd, dif_pos ⟨hlt, hspace⟩, ih (by omega), take_succ_drop value hlt hb,
        List.rdropWhile_concat_pos _ _ _ hlast]
  | case2 «end» h =>
      rw [trimEnd, dif_neg h]
      by_cases hlt : begin < «end»
      · have hb := List.getElem?_eq_getElem (show «end» - 1 < value.length by omega)
        rw [take_succ_drop value hlt hb, List.rdropWhile_concat_neg]
        intro hspace
        exact h ⟨hlt, by rwa [hb, Option.any_some]⟩
      · rw [show «end» - begin = 0 by omega]
        rfl

theorem trimBegin_le (value : StdString) {begin : Nat} (hle : begin ≤ value.length) :
    trimBegin value begin ≤ value.length := by
  induction begin using trimBegin.induct value with
  | case1 begin h ih =>
      rw [trimBegin, dif_pos h]
      exact ih h.1
  | case2 begin h =>
      rw [trimBegin, dif_neg h]
      exact hle

/-- `trim` strips the white space from both ends. -/
theorem trim_eq (value : StdString) : trim value = strip isspace value := by
  have hfirst := drop_trimBegin value 0
  have hle := trimBegin_le value (Nat.zero_le value.length)
  calc trim value
      = ((value.drop (trimBegin value 0)).take
          (value.length - trimBegin value 0)).rdropWhile isspace :=
        take_trimEnd value _ value.length le_rfl
    _ = (value.drop (trimBegin value 0)).rdropWhile isspace := by
        rw [List.take_of_length_le (List.length_drop ▸ le_rfl)]
    _ = strip isspace value := by rw [hfirst, List.drop_zero, strip]

/-! ## Lines -/

/-- The lines that `std::getline` gives: those that end with a newline, and the last one if it is
not empty and the file does not fail. -/
def Ifstream.lines (file : Ifstream) : List StdString :=
  (splitLines newline file.rest).1 ++
    if file.fails || (splitLines newline file.rest).2.isEmpty then []
    else [(splitLines newline file.rest).2]

theorem getline_append (file : Ifstream) {line rest : StdString} (hline : newline ∉ line)
    (hrest : file.rest = line ++ newline :: rest) :
    getline file = some (line, { file with rest := rest }) := by
  have hall : ∀ b ∈ line, decide (b ≠ newline) = true := fun b hb =>
    decide_eq_true fun heq => hline (heq ▸ hb)
  have hdrop : file.rest.dropWhile (· ≠ newline) = newline :: rest := by
    rw [hrest, List.dropWhile_append_of_pos hall, List.dropWhile_cons_of_neg (by simp)]
  have htake : file.rest.takeWhile (· ≠ newline) = line := by
    rw [hrest, List.takeWhile_append_of_pos hall, List.takeWhile_cons_of_neg (by simp),
      List.append_nil]
  rw [getline, hdrop, htake]

theorem getline_of_notMem (file : Ifstream) (hrest : newline ∉ file.rest) :
    getline file = if file.fails || file.rest.isEmpty then none
      else some (file.rest, { file with rest := [] }) := by
  have hdrop : file.rest.dropWhile (· ≠ newline) = [] :=
    List.dropWhile_eq_nil_iff.mpr fun b hb => decide_eq_true fun heq => hrest (heq ▸ hb)
  rw [getline, hdrop]

/-- The loop of `load` over a list of lines. -/
def loadAll : List StdString → Config → Nat → Except String Config
  | [], config, _ => .ok config
  | line :: lines, config, lineNumber => do
    let config ← loadLine config (lineNumber + 1) line
    loadAll lines config (lineNumber + 1)

theorem lines_append (file : Ifstream) {line rest : StdString} (hline : newline ∉ line)
    (hrest : file.rest = line ++ newline :: rest) :
    file.lines = line :: { file with rest := rest }.lines := by
  simp only [Ifstream.lines, hrest, splitLines_append hline, List.cons_append]

theorem lines_of_notMem (file : Ifstream) (hrest : newline ∉ file.rest) :
    file.lines = if file.fails || file.rest.isEmpty then [] else [file.rest] := by
  rw [Ifstream.lines, splitLines_of_notMem hrest, List.nil_append]

/-- The loop of `load` goes through the lines. -/
theorem loadLines_eq (file : Ifstream) (config : Config) (lineNumber : Nat) :
    loadLines file config lineNumber = loadAll file.lines config lineNumber := by
  induction hlength : file.rest.length using Nat.strong_induction_on
    generalizing file config lineNumber with
  | _ n ih =>
      subst hlength
      rw [loadLines]
      rcases exists_line newline file.rest with hrest | ⟨line, rest, hline, hrest⟩
      · -- no newline is left
        have hget := getline_of_notMem file hrest
        rw [lines_of_notMem file hrest]
        by_cases hend : (file.fails || file.rest.isEmpty) = true
        · rw [if_pos hend] at hget ⊢
          split
          · rfl
          · next hsome => cases hget.symm.trans hsome
        · rw [if_neg hend] at hget ⊢
          split
          · next hnone => cases hget.symm.trans hnone
          · next line file' hsome =>
              obtain ⟨rfl, rfl⟩ := Prod.mk.inj (Option.some.inj (hget.symm.trans hsome))
              have hlast : ({ file with rest := [] } : Ifstream).lines = [] := by
                rw [lines_of_notMem _ List.not_mem_nil]
                simp
              rw [loadAll]
              refine bind_congr fun config' => ?_
              rw [ih _ (getline_lt hsome) _ _ _ rfl, hlast]
      · have hget := getline_append file hline hrest
        rw [lines_append file hline hrest, loadAll]
        split
        · next hnone => cases hget.symm.trans hnone
        · next line' file' hsome =>
            obtain ⟨rfl, rfl⟩ := Prod.mk.inj (Option.some.inj (hget.symm.trans hsome))
            exact bind_congr fun config' => ih _ (getline_lt hsome) _ _ _ rfl

/-- `load` on a file that opens is the recursion over its lines, from the empty configuration on.
-/
theorem load_eq (path : String) {file : Ifstream} (hopen : file.is_open = true) :
    load path file = loadAll file.lines Config.new 0 := by
  rw [load, hopen]
  exact loadLines_eq file Config.new 0

end PacketForge.ConfigLoader
