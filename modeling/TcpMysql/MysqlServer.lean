import TcpMysql.DecimalText
import TcpMysql.SqlCache

/-!
# The text of a reply

`MysqlServer::process` hands a statement to the MySQL client library and writes
what comes back into one text.  Without a result set the text is an error line;
otherwise it is a header with the numbers of rows and fields and one line for
each row.  The numbers are narrowed to `int` before they are written and before
they drive the loops, and a cell becomes a `std::string` through its pointer
alone, so a null pointer is a fault and a zero byte ends the cell.

The client library is not part of the repository.  What its calls answer during
one call of `process` is a parameter.
-/

namespace TcpMysql

/-- The smallest `int`. -/
def intMin : Int := -2 ^ 31

/-- One element of a `MYSQL_ROW`.  SQL `NULL` is a null pointer, and the bytes of
other values may include zero bytes. -/
abbrev Cell := Option Bytes

/-- What a `MYSQL_RES` refers to.  `mysql_num_rows` is an unsigned number of 64
bits and `mysql_num_fields` one of 32 bits. -/
structure ResultSet where
  fields : Nat
  rows : List (List Cell)
  fields_pos : 1 ≤ fields
  fields_lt : fields < 2 ^ 32
  rows_lt : rows.length < 2 ^ 64
  row_length : ∀ row ∈ rows, row.length = fields

/-- What the calls on `mysqlconn_` answer during one call of `process`.
`mysql_error` is a C string. -/
structure ClientAnswers where
  mysqlQuery : Int
  mysqlStoreResult : Option ResultSet
  mysqlErrno : Nat
  mysqlError : Bytes
  errno_lt : mysqlErrno < 2 ^ 32
  error_noZero : 0 ∉ mysqlError

/-- The ways `process` can end other than by returning. -/
inductive ProcessFault
  | nullRow
  | nullString
  | outOfBounds
  | signedOverflow
  deriving DecidableEq, Repr

/-- The rows of the stored result that are not fetched yet, and the number of
those that are. -/
structure RowCursor where
  rowsLeft : List (List Cell)
  fetched : Nat
  deriving DecidableEq, Repr

namespace MysqlServer

abbrev ProcessM := EStateM ProcessFault RowCursor

/-- `mysql_fetch_row`: the next row, or a null pointer after the last one. -/
def mysqlFetchRow : ProcessM (Option (List Cell)) :=
  modifyGet fun cursor =>
    match cursor.rowsLeft with
    | [] => (none, cursor)
    | row :: rows => (some row, ⟨rows, cursor.fetched + 1⟩)

/-- `res+=static_cast<string>(row[i])+"\t"`. -/
def appendCell (row : Option (List Cell)) (res : Bytes) (i : Nat) : ProcessM Bytes :=
  match row with
  | none => throw .nullRow
  | some cells =>
      match cells[i]? with
      | none => throw .outOfBounds
      | some none => throw .nullString
      | some (some value) => pure (res ++ (cStr value ++ ascii "\t"))

/-- The `for` loop over the fields and the line break after it. -/
def appendRow (num_fields : Int) (row : Option (List Cell)) (res : Bytes) :
    ProcessM Bytes := do
  let res ← (List.range num_fields.toNat).foldlM (appendCell row) res
  return res ++ ascii "\n"

/-- `while(num_rows--)`.  Below zero the count runs down to the smallest `int`,
which cannot be decremented. -/
def appendRows (num_fields : Int) (num_rows : Int) (res : Bytes) : ProcessM Bytes :=
  if num_rows = 0 then
    pure res
  else if num_rows ≤ intMin then
    throw .signedOverflow
  else do
    let row ← mysqlFetchRow
    let res ← appendRow num_fields row res
    appendRows num_fields (num_rows - 1) res
termination_by (num_rows - intMin).toNat

/-- The two lines before the rows. -/
def header (num_rows num_fields : Int) : Bytes :=
  ascii "number of rows:" ++ decimalString num_rows ++ ascii "\n" ++
    (ascii "number of fields" ++ decimalString num_fields ++ ascii "\n")

/-- The line written when there is no result set. -/
def errorLine (errno : Nat) (error : Bytes) : Bytes :=
  ascii "error " ++ decimal errno ++ ascii ": " ++ error ++ ascii "\n"

/-- `MysqlServer::process`.  The answer to `mysql_query` is not looked at. -/
def process (answers : ClientAnswers) : ProcessM Bytes :=
  match answers.mysqlStoreResult with
  | none => pure (errorLine answers.mysqlErrno answers.mysqlError)
  | some result => do
      set (RowCursor.mk result.rows 0)
      let num_rows := toInt result.rows.length
      let num_fields := toInt result.fields
      appendRows num_fields num_rows (header num_rows num_fields)

end MysqlServer

end TcpMysql
