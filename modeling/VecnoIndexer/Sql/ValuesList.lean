import Mathlib.Data.List.Basic
import Mathlib.Data.Nat.Notation
import VecnoIndexer.Collections.Fallible
import VecnoIndexer.Sql.Inserts

/-!
# The text of a VALUES list

`($1, $2), ($3, $4)`: parenthesised groups of numbered placeholders, as the database reads
them, first into tokens and then into groups.  A printed list is read back as it was.  What
a list denotes are the bound values that its placeholders number.
-/

namespace VecnoIndexer.Sql

namespace ValuesList

inductive Token where
  | opening
  | closing
  | comma
  | placeholder (number : ℕ)
  deriving DecidableEq, Repr

/-! ## Reading -/

def punctuation (char : Char) : Option (List Token) :=
  if char = '(' then some [.opening]
  else if char = ')' then some [.closing]
  else if char = ',' then some [.comma]
  else if char = ' ' then some []
  else none

/-- A punctuation mark before other tokens. -/
def marked (char : Char) (later : Option (List Token)) : Option (List Token) := do
  let mark ← punctuation char
  let tokens ← later
  pure (mark ++ tokens)

/-- The tokens of a text, after the digits of a placeholder if one is pending. -/
def tokens : Option ℕ → List Char → Option (List Token)
  | none, [] => some []
  | some number, [] => some [.placeholder number]
  | none, char :: rest =>
      if char = '$' then tokens (some 0) rest
      else marked char (tokens none rest)
  | some number, char :: rest =>
      if char.isDigit then tokens (some (10 * number + (char.toNat - '0'.toNat))) rest
      else (marked char (tokens none rest)).map (.placeholder number :: ·)

/-- What a reader of tokens has read last. -/
inductive Position where
  | start
  | betweenGroups
  | inGroup (numbers : List ℕ)
  | afterPlaceholder (numbers : List ℕ)
  | afterGroup
  deriving DecidableEq, Repr

/-- The numbers in the groups, from a position on. -/
def groups : Position → List Token → Option (List (List ℕ))
  | .start, [] => some []
  | .start, .opening :: rest => groups (.inGroup []) rest
  | .betweenGroups, .opening :: rest => groups (.inGroup []) rest
  | .inGroup numbers, .placeholder number :: rest =>
      groups (.afterPlaceholder (numbers ++ [number])) rest
  | .afterPlaceholder numbers, .comma :: rest => groups (.inGroup numbers) rest
  | .afterPlaceholder numbers, .closing :: rest => do
      let later ← groups .afterGroup rest
      pure (numbers :: later)
  | .afterGroup, .comma :: rest => groups .betweenGroups rest
  | .afterGroup, [] => some []
  | _, _ => none

/-- The groups of a list. -/
def read (text : String) : Option (List (List ℕ)) := do
  let read ← tokens none text.toList
  groups .start read

/-! ## Printing -/

def printPlaceholder (number : ℕ) : String :=
  "$" ++ toString number

def printGroup (numbers : List ℕ) : String :=
  "(" ++ ", ".intercalate (numbers.map printPlaceholder) ++ ")"

def print (groups : List (List ℕ)) : String :=
  ", ".intercalate (groups.map printGroup)

/-- The tokens of a printed group. -/
def groupTokens (numbers : List ℕ) : List Token :=
  .opening :: (numbers.map Token.placeholder).intersperse .comma ++ [.closing]

/-- The tokens of a printed list. -/
def listTokens : List (List ℕ) → List Token
  | [] => []
  | [numbers] => groupTokens numbers
  | numbers :: next :: later => groupTokens numbers ++ .comma :: listTokens (next :: later)

/-! ## The tokens of what is printed -/

/-- Some characters are read into some tokens, whatever follows. -/
def ReadsAs (chars : List Char) (read : List Token) : Prop :=
  ∀ rest, tokens none (chars ++ rest) = (tokens none rest).map (read ++ ·)

namespace ReadsAs

variable {first second : List Char} {firstRead secondRead : List Token}

theorem append (one : ReadsAs first firstRead) (two : ReadsAs second secondRead) :
    ReadsAs (first ++ second) (firstRead ++ secondRead) := by
  intro rest
  rw [List.append_assoc, one, two, Option.map_map]
  apply congrArg (Option.map · (tokens none rest))
  funext later
  rw [Function.comp_apply, List.append_assoc]

theorem tokens_eq (one : ReadsAs first firstRead) : tokens none first = some firstRead := by
  have whole := one []
  rw [List.append_nil, tokens, Option.map_some, List.append_nil] at whole
  exact whole

end ReadsAs

theorem readsAs_opening : ReadsAs ['('] [.opening] := by
  intro rest
  rw [List.singleton_append, tokens, if_neg (by decide)]
  cases tokens none rest <;> rfl

theorem readsAs_comma : ReadsAs [',', ' '] [.comma] := by
  intro rest
  rw [List.cons_append, List.singleton_append, tokens, if_neg (by decide), tokens,
    if_neg (by decide)]
  cases tokens none rest <;> rfl

theorem tokens_digits {digits : List Char} (all : ∀ char ∈ digits, char.isDigit = true)
    (number : ℕ) (rest : List Char) :
    tokens (some number) (digits ++ rest) =
      tokens (some (Nat.ofDigitChars 10 digits number)) rest := by
  induction digits generalizing number with
  | nil => rfl
  | cons first digits ih =>
      have firstDigit := all first List.mem_cons_self
      rw [List.cons_append, tokens, if_pos firstDigit, Nat.ofDigitChars_cons]
      exact ih (fun char isLater => all char (List.mem_cons_of_mem first isLater)) _

/-- A placeholder ends with the first character that is no digit. -/
theorem tokens_printPlaceholder (number : ℕ) {char : Char} (noDigit : char.isDigit = false)
    (rest : List Char) :
    tokens none ((printPlaceholder number).toList ++ char :: rest) =
      (marked char (tokens none rest)).map (.placeholder number :: ·) := by
  have digits : (printPlaceholder number).toList = '$' :: Nat.toDigits 10 number := by
    rw [printPlaceholder, String.toList_append, Nat.toString_eq_repr, Nat.toList_repr]
    rfl
  have all (digit : Char) (isDigit : digit ∈ Nat.toDigits 10 number) : digit.isDigit = true :=
    Nat.isDigit_of_mem_toDigits (by decide) (by decide) isDigit
  rw [digits, List.cons_append, tokens, if_pos rfl, tokens_digits all,
    Nat.ofDigitChars_ten_toDigits, tokens, if_neg (by rw [noDigit]; decide)]

theorem readsAs_placeholder_comma (number : ℕ) :
    ReadsAs ((printPlaceholder number).toList ++ [',', ' ']) [.placeholder number, .comma] := by
  intro rest
  rw [List.append_assoc, List.cons_append, List.singleton_append,
    tokens_printPlaceholder number (by decide), tokens, if_neg (by decide)]
  cases tokens none rest <;> rfl

theorem readsAs_placeholder_closing (number : ℕ) :
    ReadsAs ((printPlaceholder number).toList ++ [')']) [.placeholder number, .closing] := by
  intro rest
  rw [List.append_assoc, List.singleton_append, tokens_printPlaceholder number (by decide)]
  cases tokens none rest <;> rfl

theorem readsAs_placeholders (first : ℕ) (later : List ℕ) :
    ReadsAs ((", ".intercalate ((first :: later).map printPlaceholder)).toList ++ [')'])
      (((first :: later).map Token.placeholder).intersperse .comma ++ [.closing]) := by
  induction later generalizing first with
  | nil =>
      rw [List.map_singleton, String.intercalate_singleton]
      exact readsAs_placeholder_closing first
  | cons second rest ih =>
      have next := (readsAs_placeholder_comma first).append (ih second)
      rw [List.map_cons, List.map_cons, String.intercalate_cons_cons, String.toList_append,
        String.toList_append, List.append_assoc]
      exact next

theorem readsAs_printGroup {numbers : List ℕ} (some : numbers ≠ []) :
    ReadsAs (printGroup numbers).toList (groupTokens numbers) := by
  obtain ⟨first, later, rfl⟩ := List.exists_cons_of_ne_nil some
  have whole := readsAs_opening.append (readsAs_placeholders first later)
  rw [printGroup, String.toList_append, String.toList_append, List.append_assoc]
  exact whole

theorem readsAs_print {groups : List (List ℕ)} (some : ∀ numbers ∈ groups, numbers ≠ []) :
    ReadsAs (print groups).toList (listTokens groups) := by
  induction groups with
  | nil =>
      intro rest
      rw [print, List.map_nil, String.intercalate_nil]
      exact Option.map_id'.symm
  | cons first later ih =>
      have firstGroup := readsAs_printGroup (some first List.mem_cons_self)
      cases later with
      | nil => exact firstGroup
      | cons next rest =>
          have others := ih fun numbers isLater => some numbers (List.mem_cons_of_mem first isLater)
          have whole := (firstGroup.append readsAs_comma).append others
          rw [print, List.map_cons, List.map_cons, String.intercalate_cons_cons,
            String.toList_append, String.toList_append, listTokens]
          rwa [List.append_assoc (groupTokens first)] at whole

/-! ## The groups of what is printed -/

theorem groups_placeholders (before : List ℕ) (first : ℕ) (later : List ℕ) (rest : List Token) :
    groups (.inGroup before)
        (((first :: later).map Token.placeholder).intersperse .comma ++ .closing :: rest) =
      (groups .afterGroup rest).map ((before ++ first :: later) :: ·) := by
  induction later generalizing before first with
  | nil => cases read : groups .afterGroup rest <;> simp [groups, read]
  | cons second later ih =>
      have next := ih (before ++ [first]) second
      rw [List.append_assoc, List.singleton_append] at next
      exact next

/-- A group that is read first or after another one. -/
theorem groups_groupTokens {position : Position}
    (opens : position = .start ∨ position = .betweenGroups) {numbers : List ℕ}
    (some : numbers ≠ []) (rest : List Token) :
    groups position (groupTokens numbers ++ rest) =
      (groups .afterGroup rest).map (numbers :: ·) := by
  obtain ⟨first, later, rfl⟩ := List.exists_cons_of_ne_nil some
  have content := groups_placeholders [] first later rest
  rw [groupTokens, List.cons_append, List.cons_append, List.append_assoc, List.singleton_append]
  rcases opens with rfl | rfl
  · exact content
  · exact content

theorem groups_listTokens {position : Position}
    (opens : position = .start ∨ position = .betweenGroups) {first : List ℕ} {later : List (List ℕ)}
    (some : ∀ numbers ∈ first :: later, numbers ≠ []) :
    groups position (listTokens (first :: later)) = .some (first :: later) := by
  have firstSome := some first List.mem_cons_self
  induction later generalizing position first with
  | nil =>
      have group := groups_groupTokens opens firstSome []
      rw [List.append_nil] at group
      exact group
  | cons next rest ih =>
      have others := ih (Or.inr rfl) (fun numbers isLater =>
        some numbers (List.mem_cons_of_mem first isLater))
        (some next (List.mem_cons_of_mem first List.mem_cons_self))
      rw [listTokens, groups_groupTokens opens firstSome, groups, others, Option.map_some]

/-- What is printed is read back. -/
theorem read_print {groups : List (List ℕ)} (some : ∀ numbers ∈ groups, numbers ≠ []) :
    read (print groups) = .some groups := by
  rw [read, (readsAs_print some).tokens_eq, Option.bind_eq_bind, Option.bind_some]
  cases groups with
  | nil => rfl
  | cons first later => exact groups_listTokens (Or.inl rfl) some

/-! ## Consecutive numbers -/

/-- Groups of one width that number the bound values from one on. -/
def numbered (columns : ℕ) : ℕ → ℕ → List (List ℕ)
  | _, 0 => []
  | first, rows + 1 => List.range' first columns :: numbered columns (first + columns) rows

section Numbered

variable (columns first rows : ℕ)

theorem length_numbered : (numbered columns first rows).length = rows := by
  induction rows generalizing first with
  | zero => rfl
  | succ rows ih => rw [numbered, List.length_cons, ih]

theorem numbered_eq_map : numbered columns first rows =
    (List.range rows).map fun row => List.range' (first + row * columns) columns := by
  induction rows generalizing first with
  | zero => rfl
  | succ rows ih =>
      rw [numbered, ih, List.range_succ_eq_map, List.map_cons, List.map_map, Nat.zero_mul,
        Nat.add_zero]
      congr 1
      apply List.map_congr_left
      intro row _
      rw [Function.comp_apply, Nat.succ_mul, Nat.add_assoc, Nat.add_comm columns]

theorem flatten_numbered :
    (numbered columns first rows).flatten = List.range' first (rows * columns) := by
  induction rows generalizing first with
  | zero => rw [Nat.zero_mul, numbered, List.flatten_nil, List.range'_zero]
  | succ rows ih =>
      rw [numbered, List.flatten_cons, ih, Nat.succ_mul, Nat.add_comm (rows * columns),
        List.range'_append_1]

theorem getElem?_numbered {row : ℕ} (isRow : row < rows) :
    (numbered columns first rows)[row]? = some (List.range' (first + row * columns) columns) := by
  induction rows generalizing first row with
  | zero => omega
  | succ rows ih =>
      cases row with
      | zero => rw [numbered, List.getElem?_cons_zero, Nat.zero_mul, Nat.add_zero]
      | succ row =>
          rw [numbered, List.getElem?_cons_succ, ih _ (by omega), Nat.succ_mul,
            Nat.add_assoc, Nat.add_comm columns]

theorem length_of_mem_numbered {numbers : List ℕ}
    (isGroup : numbers ∈ numbered columns first rows) :
    numbers.length = columns := by
  induction rows generalizing first with
  | zero => cases isGroup
  | succ rows ih =>
      rcases List.mem_cons.mp isGroup with rfl | isLater
      · exact List.length_range'
      · exact ih _ isLater

/-- Where a number stands. -/
theorem getElem?_of_numbered {position : ℕ} (positive : 0 < columns)
    (isPosition : position < rows * columns) :
    ((numbered columns first rows)[position / columns]?).bind (·[position % columns]?) =
      some (first + position) := by
  rw [getElem?_numbered _ _ _ (Nat.div_lt_of_lt_mul (Nat.mul_comm rows columns ▸ isPosition)),
    Option.bind_some, List.getElem?_range' (Nat.mod_lt position positive), Nat.one_mul,
    Nat.add_assoc, Nat.div_add_mod' position columns]

end Numbered

/-! ## What a list denotes -/

section Denoted

variable {α : Type}

/-- The value bound to a placeholder. -/
def bound (binds : List α) : ℕ → Option α
  | 0 => none
  | position + 1 => binds[position]?

def denoted (binds : List α) (groups : List (List ℕ)) : Option (List (List α)) :=
  groups.mapM fun numbers => numbers.mapM (bound binds)

theorem mapM_bound_range' (before row later : List α) :
    (List.range' (before.length + 1) row.length).mapM (bound (before ++ (row ++ later))) =
      some row := by
  induction row generalizing before with
  | nil => rfl
  | cons value rest ih =>
      have next : (List.range' (before.length + 1 + 1) rest.length).mapM
          (bound (before ++ (value :: rest ++ later))) = some rest := by
        simpa using ih (before ++ [value])
      have here : bound (before ++ (value :: rest ++ later)) (before.length + 1) = some value := by
        rw [bound, List.getElem?_append_right (Nat.le_refl _), Nat.sub_self]
        rfl
      rw [List.length_cons, List.range'_succ, List.mapM_cons, here, next]
      rfl

/-- Rows of one width, bound one after another, are what consecutive groups denote. -/
theorem denoted_numbered {columns : ℕ} {rows : List (List α)}
    (width : ∀ row ∈ rows, row.length = columns) (before : List α) :
    denoted (before ++ rows.flatten) (numbered columns (before.length + 1) rows.length) =
      some rows := by
  induction rows generalizing before with
  | nil => rfl
  | cons row rest ih =>
      have rowWidth := width row List.mem_cons_self
      have next : denoted (before ++ (row :: rest).flatten)
          (numbered columns (before.length + 1 + columns) rest.length) = some rest := by
        have later := ih (fun other isLater => width other (List.mem_cons_of_mem row isLater))
          (before ++ row)
        rw [List.append_assoc, List.length_append, rowWidth, Nat.add_right_comm] at later
        exact later
      have here := mapM_bound_range' before row rest.flatten
      rw [rowWidth] at here
      rw [List.length_cons, numbered, denoted, List.mapM_cons]
      change (do
        let values ← (List.range' (before.length + 1) columns).mapM
          (bound (before ++ (row ++ rest.flatten)))
        let others ← denoted (before ++ (row :: rest).flatten)
          (numbered columns (before.length + 1 + columns) rest.length)
        pure (values :: others)) = _
      rw [here, next]
      rfl

end Denoted

end ValuesList

/-! ## Inserting a list -/

/-- An insert of a VALUES list: the columns it fills, the names of the columns of the list,
those of them it selects, the text of the list, and the values bound. -/
structure ValuesInsert (Column Value : Type) where
  columns : List Column
  named : List Column
  selected : List Column
  text : String
  binds : List Value

namespace ValuesInsert

open VecnoIndexer.Collections

variable {Column Value α : Type}

/-- `INSERT INTO table (columns) VALUES text` -/
def direct (columns : List Column) (text : String) (binds : List Value) :
    ValuesInsert Column Value where
  columns
  named := columns
  selected := columns
  text
  binds

variable [DecidableEq Column] (insert : ValuesInsert Column Value)

/-- The columns of a row of the list, filled one for one with those selected. -/
def row (values : List Value) : Option (List (Column × Value)) := do
  let selected ← insert.selected.mapM fun name => (insert.named.zip values).lookup name
  if values.length = insert.named.length ∧ selected.length = insert.columns.length then
    pure (insert.columns.zip selected)
  else
    none

def rows : Option (List (List (Column × Value))) := do
  let groups ← ValuesList.read insert.text
  let lists ← ValuesList.denoted insert.binds groups
  lists.mapM insert.row

/-- The records stored, which take their fields from the columns by name. -/
def stored (ofColumns : (Column → Option Value) → Option α) : Option (List α) := do
  let rows ← insert.rows
  rows.mapM fun row => ofColumns fun column => row.lookup column

theorem mapM_lookup_zip {names : List Column} (nodup : names.Nodup) {values : List Value}
    (length : values.length = names.length) :
    (names.mapM fun name => (names.zip values).lookup name) = some values := by
  induction names generalizing values with
  | nil =>
      rw [List.length_eq_zero_iff.mp length]
      rfl
  | cons name rest ih =>
      obtain ⟨value, others, rfl⟩ := List.exists_cons_of_length_eq_add_one length
      obtain ⟨fresh, restNodup⟩ := List.nodup_cons.mp nodup
      have here : ((name :: rest).zip (value :: others)).lookup name = some value := by
        rw [List.zip_cons_cons, List.lookup_cons_self]
      have skips (other : Column) (isOther : other ∈ rest) :
          ((name :: rest).zip (value :: others)).lookup other = (rest.zip others).lookup other := by
        have different : (other == name) = false :=
          beq_false_of_ne fun same => fresh (same ▸ isOther)
        rw [List.zip_cons_cons, List.lookup_cons, different]
      have later : (rest.mapM fun other =>
          ((name :: rest).zip (value :: others)).lookup other) = some others := by
        rw [← ih restNodup (Nat.succ.inj length)]
        exact mapM_congr_of_mem skips
      rw [List.mapM_cons, here, later]
      rfl

theorem row_direct {columns : List Column} (nodup : columns.Nodup) {text : String}
    {binds values : List Value} (length : values.length = columns.length) :
    (direct columns text binds).row values = some (columns.zip values) := by
  rw [row, direct, mapM_lookup_zip nodup length, Option.bind_eq_bind, Option.bind_some,
    if_pos ⟨length, length⟩]
  rfl

/-- Records bound one after another are stored as they are, if each is what the columns
say of its values. -/
theorem stored_direct {columns : List Column} (nodup : columns.Nodup) {text : String}
    {records : List α} {encode : α → List Value}
    {ofColumns : (Column → Option Value) → Option α}
    (listed : ValuesList.read text =
      some (ValuesList.numbered columns.length 1 records.length))
    (width : ∀ record, (encode record).length = columns.length)
    (decodes : ∀ record,
      (ofColumns fun column => (columns.zip (encode record)).lookup column) = some record) :
    (direct columns text (records.flatMap encode)).stored ofColumns = some records := by
  have lists : ValuesList.denoted (records.flatMap encode)
      (ValuesList.numbered columns.length 1 records.length) = some (records.map encode) := by
    have wide : ∀ values ∈ records.map encode, values.length = columns.length := by
      intro values isRow
      obtain ⟨record, _, rfl⟩ := List.mem_map.mp isRow
      exact width record
    have denotes := ValuesList.denoted_numbered wide []
    rwa [List.length_map, ← List.flatMap_def] at denotes
  have filled : (records.map encode).mapM (direct columns text (records.flatMap encode)).row =
      some ((records.map encode).map fun values => columns.zip values) := by
    apply mapM_eq_some_map
    intro values isRow
    obtain ⟨record, _, rfl⟩ := List.mem_map.mp isRow
    exact row_direct nodup (width record)
  have rows : (direct columns text (records.flatMap encode)).rows =
      some (records.map fun record => columns.zip (encode record)) := by
    change (ValuesList.read text).bind (fun groups =>
      (ValuesList.denoted (records.flatMap encode) groups).bind _) = _
    rw [listed, Option.bind_some, lists, Option.bind_some, filled, List.map_map]
    rfl
  have decoded : records.mapM ((fun row => ofColumns fun column => row.lookup column) ∘
      fun record => columns.zip (encode record)) = some (records.map id) :=
    mapM_eq_some_map fun record _ => decodes record
  rw [stored, rows, Option.bind_eq_bind, Option.bind_some, List.mapM_map, decoded, List.map_id]

/-! ## What the database accepts -/

/-- The number of parameters of a statement is sent in two bytes. -/
def maxBinds : ℕ := 65535

/-- A VALUES list has a row, and its values can be bound. -/
def Accepted (insert : ValuesInsert Column Value) : Prop :=
  (ValuesList.read insert.text).any (fun groups => !groups.isEmpty) = true ∧
    insert.binds.length ≤ maxBinds

instance (insert : ValuesInsert Column Value) : Decidable insert.Accepted :=
  inferInstanceAs (Decidable (_ ∧ _))

omit [DecidableEq Column] in
/-- Consecutive groups are accepted if there are some, and not too many. -/
theorem accepted_iff {insert : ValuesInsert Column Value} {columns rows : ℕ}
    (listed : ValuesList.read insert.text = some (ValuesList.numbered columns 1 rows))
    (width : insert.binds.length = rows * columns) :
    insert.Accepted ↔ 0 < rows ∧ rows * columns ≤ maxBinds := by
  rw [Accepted, listed, width, Option.any_some]
  apply and_congr_left
  intro _
  cases rows <;> simp [ValuesList.numbered]

section Execute

variable {ε σ κ : Type} {key : α → Option κ} [DecidableEq κ] (unavailable refused : ε)
  (place : TableOf σ key) (ofColumns : (Column → Option Value) → Option α)

/-- The statement: what the list denotes is inserted. -/
def execute : Session ε σ ℕ :=
  Session.statement unavailable fun state =>
    if insert.Accepted then
      match insert.stored ofColumns with
      | some rows =>
          let inserted := (place.get state).insertAll rows
          .ok (inserted.rows.length - (place.get state).rows.length, place.set inserted state)
      | none => .error refused
    else
      .error refused

variable {insert ofColumns}

theorem execute_eq_insertRows (accepted : insert.Accepted) {records : List α}
    (stores : insert.stored ofColumns = some records) :
    insert.execute unavailable refused place ofColumns = insertRows unavailable place records := by
  simp only [execute, accepted, if_true, stores]
  rfl

end Execute

end ValuesInsert

end VecnoIndexer.Sql
