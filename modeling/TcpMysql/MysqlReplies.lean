import TcpMysql.MysqlServer
import TcpMysql.SelfDelimiting
import Mathlib.Algebra.Order.BigOperators.Group.List
import Mathlib.Algebra.Order.Group.Nat
import Mathlib.Data.List.TakeWhile

/-!
# What a reply says

The text of a reply is compared with the outcome of the statement: a table whose
cells are strings or `NULL`, or an error.  `process` writes the table as it would
be with every cell cut at its first zero byte, when it returns at all.
-/

namespace TcpMysql

/-! ## Outcomes and their texts -/

/-- What a statement comes to, as the client library reports it. -/
inductive Outcome
  | rows (fields : Nat) (rows : List (List Cell))
  | error (errno : Nat) (text : Bytes)
  deriving DecidableEq, Repr

def ClientAnswers.outcome (answers : ClientAnswers) : Outcome :=
  match answers.mysqlStoreResult with
  | none => .error answers.mysqlErrno answers.mysqlError
  | some result => .rows result.fields result.rows

namespace MysqlServer

def cellText (cell : Cell) : Bytes :=
  cell.getD [] ++ ascii "\t"

/-- A line with the cells of a row in order and a tab after each. -/
def rowText (row : List Cell) : Bytes :=
  row.flatMap cellText ++ ascii "\n"

/-- The text that tells the outcome in full. -/
def outcomeText : Outcome → Bytes
  | .rows fields rows => header rows.length fields ++ rows.flatMap rowText
  | .error errno text => errorLine errno text

/-- A cell up to its first zero byte. -/
def cutCell (cell : Cell) : Cell :=
  cell.map cStr

def cutRow (row : List Cell) : List Cell :=
  row.map cutCell

def cutOutcome : Outcome → Outcome
  | .rows fields rows => .rows fields (rows.map cutRow)
  | .error errno text => .error errno text

/-! ## The loops -/

theorem run_appendCells (done : List Cell) {cells : List Cell}
    (strings : none ∉ cells) (res : Bytes) (cursor : RowCursor) :
    ((List.range' done.length cells.length).foldlM
        (appendCell (some (done ++ cells))) res : ProcessM Bytes).run cursor =
      .ok (res ++ (cutRow cells).flatMap cellText) cursor := by
  induction cells generalizing done res with
  | nil => simp [cutRow]
  | cons cell cells ih =>
      cases cell with
      | none => simp at strings
      | some value =>
          have rest : none ∉ cells := fun member => strings (by simp [member])
          have tailEq := ih (done ++ [some value]) rest
            (res ++ (cStr value ++ ascii "\t"))
          simp only [List.length_append, List.length_singleton, List.append_assoc,
            List.singleton_append] at tailEq
          simp [List.range'_succ, appendCell, tailEq, cutRow, cutCell, cellText]

theorem run_appendCells_null (done : List Cell) {cells : List Cell}
    (null : none ∈ cells) (res : Bytes) (cursor : RowCursor) :
    ((List.range' done.length cells.length).foldlM
        (appendCell (some (done ++ cells))) res : ProcessM Bytes).run cursor =
      .error .nullString cursor := by
  induction cells generalizing done res with
  | nil => simp at null
  | cons cell cells ih =>
      cases cell with
      | none =>
          have failed : (appendCell (some (done ++ none :: cells)) res
              done.length).run cursor = .error .nullString cursor := by
            have cellAt : (done ++ none :: cells)[done.length]? = some none := by simp
            rw [appendCell, cellAt]
            rfl
          simp [List.range'_succ, failed]
      | some value =>
          have rest : none ∈ cells := by simpa using null
          have tailEq := ih (done ++ [some value]) rest
            (res ++ (cStr value ++ ascii "\t"))
          simp only [List.length_append, List.length_singleton, List.append_assoc,
            List.singleton_append] at tailEq
          simp [List.range'_succ, appendCell, tailEq]

theorem run_appendRow {fields : Nat} {row : List Cell} (width : row.length = fields)
    (strings : none ∉ row) (res : Bytes) (cursor : RowCursor) :
    (appendRow fields (some row) res).run cursor =
      .ok (res ++ rowText (cutRow row)) cursor := by
  have cells := run_appendCells [] strings res cursor
  simp only [List.length_nil, List.nil_append, width, ← List.range_eq_range'] at cells
  simp [appendRow, cells, rowText, -bind_pure_comp]

theorem run_appendRow_null {fields : Nat} {row : List Cell}
    (width : row.length = fields) (null : none ∈ row) (res : Bytes)
    (cursor : RowCursor) :
    (appendRow fields (some row) res).run cursor = .error .nullString cursor := by
  have cells := run_appendCells_null [] null res cursor
  simp only [List.length_nil, List.nil_append, width, ← List.range_eq_range'] at cells
  simp [appendRow, cells, -bind_pure_comp]

@[simp]
theorem appendRows_zero (num_fields : Int) (res : Bytes) :
    appendRows num_fields 0 res = pure res := by
  rw [appendRows, if_pos rfl]

theorem appendRows_succ (num_fields : Int) (count : Nat) (res : Bytes) :
    appendRows num_fields (count + 1) res =
      mysqlFetchRow >>= fun row => appendRow num_fields row res >>= fun res =>
        appendRows num_fields count res := by
  have nonzero : ¬((count : Int) + 1 = 0) := by omega
  have above : ¬((count : Int) + 1 ≤ intMin) := by
    unfold intMin
    omega
  rw [appendRows, if_neg nonzero, if_neg above, Int.add_sub_cancel]

/-- One round of the loop. -/
theorem run_appendRows_succ (num_fields : Int) (count : Nat) (res : Bytes)
    (row : List Cell) (rows : List (List Cell)) (fetched : Nat) :
    (appendRows num_fields (count + 1) res).run ⟨row :: rows, fetched⟩ =
      match (appendRow num_fields (some row) res).run ⟨rows, fetched + 1⟩ with
      | .ok res cursor => (appendRows num_fields count res).run cursor
      | .error fault cursor => .error fault cursor := by
  have fetchRan : mysqlFetchRow.run ⟨row :: rows, fetched⟩ =
      .ok (some row) ⟨rows, fetched + 1⟩ := rfl
  rw [appendRows_succ, EStateM.run_bind, fetchRan]
  simp only
  rw [EStateM.run_bind]
  cases (appendRow num_fields (some row) res).run ⟨rows, fetched + 1⟩ with
  | ok res cursor => rfl
  | error fault cursor => rfl

/-- The loop over all rows writes a line for each of them. -/
theorem run_appendRows {fields : Nat} {rows : List (List Cell)}
    (widths : ∀ row ∈ rows, row.length = fields) (strings : ∀ row ∈ rows, none ∉ row)
    (res : Bytes) (fetched : Nat) :
    (appendRows fields rows.length res).run ⟨rows, fetched⟩ =
      .ok (res ++ (rows.map cutRow).flatMap rowText)
        ⟨[], fetched + rows.length⟩ := by
  induction rows generalizing res fetched with
  | nil => simp
  | cons row rows ih =>
      have countEq : ((row :: rows).length : Int) = rows.length + 1 := by simp
      rw [countEq, run_appendRows_succ,
        run_appendRow (widths row (by simp)) (strings row (by simp))]
      simp only
      rw [ih (fun other member => widths other (by simp [member]))
        (fun other member => strings other (by simp [member]))]
      simp only [List.map_cons, List.flatMap_cons, List.append_assoc, List.length_cons]
      congr 2
      omega

/-- The loop over all rows returns only when no cell is `NULL`. -/
theorem strings_of_appendRows {fields : Nat} {rows : List (List Cell)}
    (widths : ∀ row ∈ rows, row.length = fields) {res text : Bytes} {fetched : Nat}
    {final : RowCursor}
    (ran : (appendRows fields rows.length res).run ⟨rows, fetched⟩ = .ok text final) :
    ∀ row ∈ rows, none ∉ row := by
  induction rows generalizing res fetched with
  | nil => simp
  | cons row rows ih =>
      have countEq : ((row :: rows).length : Int) = rows.length + 1 := by simp
      have width := widths row (by simp)
      rw [countEq, run_appendRows_succ] at ran
      by_cases null : none ∈ row
      · rw [run_appendRow_null width null] at ran
        simp at ran
      · rw [run_appendRow width null] at ran
        have rest := ih (fun other member => widths other (by simp [member])) ran
        simpa [null] using rest

/-! ## What is written stays -/

theorem exists_of_run_bind {First Second : Type} {action : ProcessM First}
    {next : First → ProcessM Second} {cursor final : RowCursor} {value : Second}
    (ran : (action >>= next).run cursor = .ok value final) :
    ∃ first middle, action.run cursor = .ok first middle ∧
      (next first).run middle = .ok value final := by
  rw [EStateM.run_bind] at ran
  cases firstRan : action.run cursor with
  | ok first middle =>
      rw [firstRan] at ran
      exact ⟨first, middle, rfl, ran⟩
  | error fault middle =>
      rw [firstRan] at ran
      simp at ran

theorem appendCell_extends {row : Option (List Cell)} {res text : Bytes} {i : Nat}
    {cursor final : RowCursor}
    (ran : (appendCell row res i).run cursor = .ok text final) : res <+: text := by
  unfold appendCell at ran
  split at ran
  · cases ran
  · split at ran
    · cases ran
    · cases ran
    · obtain ⟨rfl, -⟩ := EStateM.Result.ok.inj ran
      exact List.prefix_append _ _

theorem appendCells_extends {row : Option (List Cell)} {indices : List Nat}
    {res text : Bytes} {cursor final : RowCursor}
    (ran : (indices.foldlM (appendCell row) res : ProcessM Bytes).run cursor =
      .ok text final) : res <+: text := by
  induction indices generalizing res cursor with
  | nil =>
      obtain ⟨rfl, -⟩ := EStateM.Result.ok.inj ran
      exact List.prefix_rfl
  | cons i indices ih =>
      rw [List.foldlM_cons] at ran
      obtain ⟨longer, middle, cellRan, rest⟩ := exists_of_run_bind ran
      exact (appendCell_extends cellRan).trans (ih rest)

theorem appendRow_extends {num_fields : Int} {row : Option (List Cell)}
    {res text : Bytes} {cursor final : RowCursor}
    (ran : (appendRow num_fields row res).run cursor = .ok text final) :
    res <+: text := by
  obtain ⟨cells, middle, cellsRan, rest⟩ := exists_of_run_bind ran
  obtain ⟨rfl, -⟩ := EStateM.Result.ok.inj rest
  exact (appendCells_extends cellsRan).trans (List.prefix_append _ _)

theorem appendRows_extends {num_fields num_rows : Int} {res text : Bytes}
    {cursor final : RowCursor}
    (ran : (appendRows num_fields num_rows res).run cursor = .ok text final) :
    res <+: text := by
  induction num_rows, res using appendRows.induct generalizing cursor with
  | case1 res =>
      rw [appendRows_zero] at ran
      obtain ⟨rfl, -⟩ := EStateM.Result.ok.inj ran
      exact List.prefix_rfl
  | case2 num_rows res nonzero low =>
      rw [appendRows, if_neg nonzero, if_pos low] at ran
      cases ran
  | case3 num_rows res nonzero high ih =>
      rw [appendRows, if_neg nonzero, if_neg high] at ran
      obtain ⟨row, fetchedCursor, -, rest⟩ := exists_of_run_bind ran
      obtain ⟨longer, middle, rowRan, restRan⟩ := exists_of_run_bind rest
      exact (appendRow_extends rowRan).trans (ih longer restRan)

/-! ## Zero bytes -/

theorem cStr_eq_self {value : Bytes} (noZero : 0 ∉ value) : cStr value = value := by
  apply List.takeWhile_eq_self_iff.mpr
  intro byte member
  simpa using ne_of_mem_of_not_mem member noZero

theorem cStr_length_le (value : Bytes) : (cStr value).length ≤ value.length :=
  (List.takeWhile_prefix _).length_le

theorem cStr_length_lt {value : Bytes} (zero : 0 ∈ value) :
    (cStr value).length < value.length := by
  apply lt_of_le_of_ne (cStr_length_le value)
  intro lengthEq
  have same : cStr value = value := (List.takeWhile_prefix _).eq_of_length lengthEq
  have nonzero := List.takeWhile_eq_self_iff.mp same 0 zero
  simp at nonzero

theorem length_flatMap_le {Value : Type} {values : List Value}
    {shorter longer : Value → Bytes}
    (atMost : ∀ value ∈ values, (shorter value).length ≤ (longer value).length) :
    (values.flatMap shorter).length ≤ (values.flatMap longer).length := by
  rw [List.length_flatMap, List.length_flatMap]
  exact List.sum_le_sum atMost

theorem length_flatMap_lt {Value : Type} {values : List Value}
    {shorter longer : Value → Bytes}
    (atMost : ∀ value ∈ values, (shorter value).length ≤ (longer value).length)
    (less : ∃ value ∈ values, (shorter value).length < (longer value).length) :
    (values.flatMap shorter).length < (values.flatMap longer).length := by
  rw [List.length_flatMap, List.length_flatMap]
  exact List.sum_lt_sum _ _ atMost less

theorem cutCell_text_le (cell : Cell) :
    (cellText (cutCell cell)).length ≤ (cellText cell).length := by
  cases cell with
  | none => simp [cutCell]
  | some value => simpa [cutCell, cellText] using cStr_length_le value

theorem cutRow_text_le (row : List Cell) :
    (rowText (cutRow row)).length ≤ (rowText row).length := by
  simp only [rowText, cutRow, List.flatMap_map, List.length_append]
  apply Nat.add_le_add_right
  apply length_flatMap_le
  intro cell _
  exact cutCell_text_le cell

theorem cutRow_text_lt {row : List Cell} {value : Bytes} (member : some value ∈ row)
    (zero : 0 ∈ value) : (rowText (cutRow row)).length < (rowText row).length := by
  simp only [rowText, cutRow, List.flatMap_map, List.length_append]
  apply Nat.add_lt_add_right
  apply length_flatMap_lt
  · intro cell _
    exact cutCell_text_le cell
  · refine ⟨some value, member, ?_⟩
    simpa [cutCell, cellText] using cStr_length_lt zero

theorem map_cutRow_eq_self {rows : List (List Cell)}
    (noZeros : ∀ row ∈ rows, ∀ value, some value ∈ row → 0 ∉ value) :
    rows.map cutRow = rows := by
  conv_rhs => rw [← List.map_id rows]
  apply List.map_congr_left
  intro row member
  unfold cutRow
  conv_rhs => rw [id, ← List.map_id row]
  apply List.map_congr_left
  intro cell inRow
  cases cell with
  | none => rfl
  | some value => simp [cutCell, cStr_eq_self (noZeros row member value inRow)]

/-- Every cell is a string without zero bytes. -/
def CleanRows (rows : List (List Cell)) : Prop :=
  ∀ row ∈ rows, ∀ cell ∈ row, ∃ value, cell = some value ∧ 0 ∉ value

theorem CleanRows.strings {rows : List (List Cell)} (clean : CleanRows rows) :
    ∀ row ∈ rows, none ∉ row := by
  intro row member null
  obtain ⟨value, equal, -⟩ := clean row member none null
  simp at equal

theorem CleanRows.noZeros {rows : List (List Cell)} (clean : CleanRows rows) :
    ∀ row ∈ rows, ∀ value, some value ∈ row → 0 ∉ value := by
  intro row member value inRow
  obtain ⟨same, equal, noZero⟩ := clean row member (some value) inRow
  obtain rfl := Option.some.inj equal
  exact noZero

/-- The lines tell the rows in full only when no cell has a zero byte. -/
theorem cleanRows_of_lines {rows : List (List Cell)}
    (strings : ∀ row ∈ rows, none ∉ row)
    (equal : (rows.map cutRow).flatMap rowText = rows.flatMap rowText) :
    CleanRows rows := by
  intro row member cell inRow
  cases cell with
  | none => exact absurd inRow (strings row member)
  | some value =>
      refine ⟨value, rfl, ?_⟩
      intro zero
      have shorter : (rows.flatMap fun row => rowText (cutRow row)).length <
          (rows.flatMap rowText).length := by
        apply length_flatMap_lt
        · intro other _
          exact cutRow_text_le other
        · exact ⟨row, member, cutRow_text_lt inRow zero⟩
      rw [List.flatMap_map] at equal
      rw [equal] at shorter
      exact absurd shorter (lt_irrefl _)

/-! ## The reply to a statement with a result set -/

theorem numberLine_selfDelimiting :
    SelfDelimiting (fun value : Int => decimalString value ++ [10]) (fun _ => True) := by
  apply (SelfDelimiting.terminated (10 : UInt8)).comp
  · intro value _
    exact newline_notMem_decimalString value
  · intro first second _ _ equal
    exact decimalString_injective equal

/-- The header can be told from what follows it. -/
theorem header_inj {rows rows' fields fields' : Int} {rest rest' : Bytes}
    (equal : header rows fields ++ rest = header rows' fields' ++ rest') :
    rows = rows' ∧ fields = fields' ∧ rest = rest' := by
  have newline : ascii "\n" = [10] := rfl
  simp only [header, newline, List.append_assoc, List.append_cancel_left_eq] at equal
  simp only [← List.append_assoc (decimalString _)] at equal
  obtain ⟨rfl, afterRows⟩ :=
    numberLine_selfDelimiting rows rows' _ _ trivial trivial equal
  rw [List.append_cancel_left_eq] at afterRows
  obtain ⟨rfl, restEq⟩ :=
    numberLine_selfDelimiting fields fields' _ _ trivial trivial afterRows
  exact ⟨rfl, rfl, restEq⟩

theorem run_process_some {answers : ClientAnswers} {result : ResultSet}
    (stored : answers.mysqlStoreResult = some result) (cursor : RowCursor) :
    (process answers).run cursor =
      (appendRows (toInt result.fields) (toInt result.rows.length)
        (header (toInt result.rows.length) (toInt result.fields))).run
          ⟨result.rows, 0⟩ := by
  simp only [process, stored, EStateM.run_bind, EStateM.run_set]

/-- A table of fewer than `2 ^ 31` rows and fields without `NULL` is written with
its cells cut at their first zero byte. -/
theorem run_process_rows {answers : ClientAnswers} {result : ResultSet}
    (stored : answers.mysqlStoreResult = some result)
    (fewRows : result.rows.length < 2 ^ 31) (fewFields : result.fields < 2 ^ 31)
    (strings : ∀ row ∈ result.rows, none ∉ row) (cursor : RowCursor) :
    (process answers).run cursor =
      .ok (outcomeText (cutOutcome answers.outcome)) ⟨[], result.rows.length⟩ := by
  have rowsEq := (toInt_eq_iff _).mpr fewRows
  have fieldsEq := (toInt_eq_iff _).mpr fewFields
  rw [run_process_some stored, rowsEq, fieldsEq,
    run_appendRows result.row_length strings]
  simp [ClientAnswers.outcome, stored, cutOutcome, outcomeText]

/-- `process` fetches every row and returns the header and one line for each row,
with all its cells in full, exactly when the numbers of rows and fields fit an
`int` and every cell is a string without zero bytes. -/
theorem rows_listed_iff {answers : ClientAnswers} {result : ResultSet}
    (stored : answers.mysqlStoreResult = some result) (cursor : RowCursor) :
    (process answers).run cursor =
        .ok (header result.rows.length result.fields ++ result.rows.flatMap rowText)
          ⟨[], result.rows.length⟩ ↔
      result.rows.length < 2 ^ 31 ∧ result.fields < 2 ^ 31 ∧
        ∀ row ∈ result.rows, ∀ cell ∈ row, ∃ value, cell = some value ∧ 0 ∉ value := by
  constructor
  · intro ran
    rw [run_process_some stored] at ran
    obtain ⟨rest, textEq⟩ := appendRows_extends ran
    obtain ⟨rowsEq, fieldsEq, -⟩ := header_inj textEq
    have fewRows := (toInt_eq_iff _).mp rowsEq
    have fewFields := (toInt_eq_iff _).mp fieldsEq
    rw [rowsEq, fieldsEq] at ran
    have strings := strings_of_appendRows result.row_length ran
    rw [run_appendRows result.row_length strings] at ran
    have lines := List.append_cancel_left (EStateM.Result.ok.inj ran).1
    exact ⟨fewRows, fewFields, cleanRows_of_lines strings lines⟩
  · rintro ⟨fewRows, fewFields, clean⟩
    have cleanRows : CleanRows result.rows := clean
    rw [run_process_rows stored fewRows fewFields cleanRows.strings]
    simp [ClientAnswers.outcome, stored, cutOutcome, outcomeText,
      map_cutRow_eq_self cleanRows.noZeros]

/-- The answers to a statement that gives a table. -/
def tableAnswers (result : ResultSet) : ClientAnswers where
  mysqlQuery := 0
  mysqlStoreResult := some result
  mysqlErrno := 0
  mysqlError := []
  errno_lt := by decide
  error_noZero := by simp

def twoRows : ResultSet where
  fields := 2
  rows := [[some [49], some [97]], [some [50], some []]]
  fields_pos := by decide
  fields_lt := by decide
  rows_lt := by decide
  row_length := by decide

/-- Two rows of strings are listed. -/
theorem rows_listed_two_rows :
    (process (tableAnswers twoRows)).run ⟨[], 0⟩ =
      .ok (ascii "number of rows:2\nnumber of fields2\n1\ta\t\n2\t\t\n") ⟨[], 2⟩ := by
  have stored : (tableAnswers twoRows).mysqlStoreResult = some twoRows := rfl
  exact (rows_listed_iff stored ⟨[], 0⟩).mpr (by decide)

/-- One cell of a row of one field. -/
def oneCell (cell : Cell) : ResultSet where
  fields := 1
  rows := [[cell]]
  fields_pos := by decide
  fields_lt := by decide
  rows_lt := by simp
  row_length := by simp

/-- A `NULL` cell makes `process` build a string from a null pointer. -/
theorem null_cell_faults :
    (process (tableAnswers (oneCell none))).run ⟨[], 0⟩ =
      .error .nullString ⟨[], 1⟩ := by
  have stored : (tableAnswers (oneCell none)).mysqlStoreResult =
      some (oneCell none) := rfl
  have rowsEq : toInt (oneCell none).rows.length = ((0 : Nat) : Int) + 1 := rfl
  have fieldsEq : toInt (oneCell none).fields = ((1 : Nat) : Int) := rfl
  have width : ([none] : List Cell).length = 1 := rfl
  rw [run_process_some stored, rowsEq, fieldsEq, oneCell, run_appendRows_succ,
    run_appendRow_null width (by simp)]

/-! ## Error replies -/

/-- What the client library documents: a statement that succeeds without a result
set stores none and has error number zero, and a statement that fails stores none
and has another error number. -/
structure ClientContract (answers : ClientAnswers) (producesRows : Bool) : Prop where
  noRows : answers.mysqlQuery = 0 → producesRows = false →
    answers.mysqlStoreResult = none ∧ answers.mysqlErrno = 0
  failed : answers.mysqlQuery ≠ 0 →
    answers.mysqlStoreResult = none ∧ answers.mysqlErrno ≠ 0

/-- The statement failed, or its result set could not be stored. -/
def StatementFailed (answers : ClientAnswers) (producesRows : Bool) : Prop :=
  answers.mysqlQuery ≠ 0 ∨ producesRows = true ∧ answers.mysqlStoreResult = none

/-- `process` returns a text that starts like an error reply. -/
def RepliesError (answers : ClientAnswers) (cursor : RowCursor) : Prop :=
  ∃ text final, (process answers).run cursor = .ok text final ∧ ascii "error " <+: text

theorem run_process_none {answers : ClientAnswers}
    (stored : answers.mysqlStoreResult = none) (cursor : RowCursor) :
    (process answers).run cursor =
      .ok (errorLine answers.mysqlErrno answers.mysqlError) cursor := by
  simp [process, stored]

theorem not_error_of_header {rows fields : Int} {text : Bytes}
    (starts : header rows fields <+: text) : ¬ascii "error " <+: text := by
  rintro ⟨rest, rfl⟩
  obtain ⟨rest', equal⟩ := starts
  have heads := congrArg List.head? equal
  simp [header, ascii] at heads

/-- An error reply tells only that no result set was stored. -/
theorem repliesError_iff (answers : ClientAnswers) (cursor : RowCursor) :
    RepliesError answers cursor ↔ answers.mysqlStoreResult = none := by
  constructor
  · rintro ⟨text, final, ran, starts⟩
    cases stored : answers.mysqlStoreResult with
    | none => rfl
    | some result =>
        rw [run_process_some stored] at ran
        exact absurd starts (not_error_of_header (appendRows_extends ran))
  · intro stored
    refine ⟨_, _, run_process_none stored cursor, ?_⟩
    simp [errorLine]

/-- An error reply is sent exactly for the failed statements, except for those that
succeed without a result set. -/
theorem error_reply_truthful_iff {answers : ClientAnswers} {producesRows : Bool}
    (contract : ClientContract answers producesRows) (cursor : RowCursor) :
    (RepliesError answers cursor ↔ StatementFailed answers producesRows) ↔
      ¬(answers.mysqlQuery = 0 ∧ producesRows = false) := by
  rw [repliesError_iff]
  constructor
  · rintro truthful ⟨succeeded, noRows⟩
    have stored := (contract.noRows succeeded noRows).1
    rcases truthful.mp stored with failed | ⟨produces, -⟩
    · exact failed succeeded
    · simp [noRows] at produces
  · intro notSilent
    constructor
    · intro stored
      by_cases succeeded : answers.mysqlQuery = 0
      · right
        refine ⟨?_, stored⟩
        cases producesRows with
        | true => rfl
        | false => exact absurd ⟨succeeded, rfl⟩ notSilent
      · exact .inl succeeded
    · rintro (failed | ⟨-, stored⟩)
      · exact (contract.failed failed).1
      · exact stored

/-- The answers to a statement without a stored result. -/
def noTableAnswers (mysqlQuery : Int) (mysqlErrno : Nat)
    (errno_lt : mysqlErrno < 2 ^ 32) : ClientAnswers where
  mysqlQuery := mysqlQuery
  mysqlStoreResult := none
  mysqlErrno := mysqlErrno
  mysqlError := []
  errno_lt := errno_lt
  error_noZero := by simp

/-- The answers to a statement with a mistake in it. -/
def mistakeAnswers : ClientAnswers :=
  noTableAnswers 1 1064 (by decide)

/-- The answers to an `INSERT` that succeeds. -/
def insertAnswers : ClientAnswers :=
  noTableAnswers 0 0 (by decide)

/-- A mistake gets an error reply. -/
theorem error_reply_truthful_mistake :
    ClientContract mistakeAnswers false ∧
      RepliesError mistakeAnswers ⟨[], 0⟩ := by
  have contract : ClientContract mistakeAnswers false :=
    ⟨by decide, by decide⟩
  refine ⟨contract, ?_⟩
  have truthful := (error_reply_truthful_iff contract ⟨[], 0⟩).mpr (by decide)
  exact truthful.mpr (.inl (by decide))

/-- An `INSERT` that succeeds gets an error reply too. -/
theorem success_replies_error :
    ClientContract insertAnswers false ∧
      ¬StatementFailed insertAnswers false ∧
        (process insertAnswers).run ⟨[], 0⟩ = .ok (ascii "error 0: \n") ⟨[], 0⟩ := by
  refine ⟨⟨by decide, by decide⟩, ?_, ?_⟩
  · rintro (failed | ⟨produces, -⟩)
    · exact failed rfl
    · simp at produces
  · rfl

end MysqlServer

end TcpMysql
