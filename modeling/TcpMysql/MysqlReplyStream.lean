import TcpMysql.MysqlReplies

/-!
# Reading the replies off the stream

The replies to a client follow each other on one byte stream.  The header tells
how many lines and cells follow, a tab closes each cell and a line break each
error, so the stream determines the replies as long as no cell contains a tab or
a line break.  What it cannot tell is what a cell had after its first zero byte,
because that part is never written.
-/

namespace TcpMysql

namespace MysqlServer

/-- A string without tabs and line breaks. -/
def PlainCell (cell : Cell) : Prop :=
  ∃ value, cell = some value ∧ 9 ∉ value ∧ 10 ∉ value

/-- A table or an error whose parts cannot be taken for the text around them. -/
def PlainOutcome : Outcome → Prop
  | .rows fields rows =>
      rows.length < 2 ^ 31 ∧ 1 ≤ fields ∧ fields < 2 ^ 31 ∧
        ∀ row ∈ rows, row.length = fields ∧ ∀ cell ∈ row, PlainCell cell
  | .error _ text => 10 ∉ text

/-- The replies to a sequence of statements, one after the other. -/
def processAll : List ClientAnswers → ProcessM Bytes
  | [] => pure []
  | answers :: rest => do
      let reply ← process answers
      let replies ← processAll rest
      return reply ++ replies

/-! ## The format -/

theorem cellText_selfDelimiting : SelfDelimiting cellText PlainCell := by
  change SelfDelimiting (fun cell : Cell => cell.getD [] ++ [9]) PlainCell
  apply (SelfDelimiting.terminated (9 : UInt8)).comp
  · rintro cell ⟨value, rfl, noTab, -⟩
    exact noTab
  · rintro first second ⟨value, rfl, -⟩ ⟨value', rfl, -⟩ equal
    exact congrArg some equal

theorem rowText_selfDelimiting (fields : Nat) :
    SelfDelimiting rowText
      (fun row => row.length = fields ∧ ∀ cell ∈ row, PlainCell cell) :=
  (cellText_selfDelimiting.flatMap fields).append (ascii "\n")

theorem errorLine_inj {errno errno' : Nat} {text text' rest rest' : Bytes}
    (oneLine : 10 ∉ text) (oneLine' : 10 ∉ text')
    (equal : errorLine errno text ++ rest = errorLine errno' text' ++ rest') :
    errno = errno' ∧ text = text' ∧ rest = rest' := by
  have numbers : SelfDelimiting (fun errno : Nat => decimal errno ++ [58])
      (fun _ => True) := by
    apply (SelfDelimiting.terminated (58 : UInt8)).comp
    · intro errno _
      exact colon_notMem_decimal errno
    · intro first second _ _ same
      exact decimal_injective same
  have separator : ascii ": " = [58] ++ [32] := rfl
  have newline : ascii "\n" = [10] := rfl
  simp only [errorLine, separator, newline, List.append_assoc,
    List.append_cancel_left_eq] at equal
  simp only [← List.append_assoc (decimal _)] at equal
  obtain ⟨rfl, afterNumber⟩ := numbers errno errno' _ _ trivial trivial equal
  rw [List.append_cancel_left_eq] at afterNumber
  simp only [← List.append_assoc _ ([10] : Bytes)] at afterNumber
  obtain ⟨rfl, restEq⟩ :=
    SelfDelimiting.terminated (10 : UInt8) text text' _ _ oneLine oneLine' afterNumber
  exact ⟨rfl, rfl, restEq⟩

theorem header_ne_errorLine (rows fields : Int) (errno : Nat)
    (text rest rest' : Bytes) :
    header rows fields ++ rest ≠ errorLine errno text ++ rest' := by
  intro equal
  have heads := congrArg List.head? equal
  simp [header, errorLine, ascii] at heads

/-- A reply can be told from what follows it. -/
theorem outcomeText_selfDelimiting : SelfDelimiting outcomeText PlainOutcome := by
  intro first second rest rest' plainFirst plainSecond equal
  cases first with
  | rows fields rows =>
      cases second with
      | rows fields' rows' =>
          simp only [outcomeText, List.append_assoc] at equal
          obtain ⟨countEq, fieldsEq, lines⟩ := header_inj equal
          obtain rfl : fields = fields' := by omega
          obtain ⟨-, -, -, plainRows⟩ := plainFirst
          obtain ⟨-, -, -, plainRows'⟩ := plainSecond
          obtain ⟨rfl, restEq⟩ :=
            (rowText_selfDelimiting fields).flatMap rows.length rows rows' rest rest'
              ⟨rfl, plainRows⟩ ⟨by omega, plainRows'⟩ lines
          exact ⟨rfl, restEq⟩
      | error errno text =>
          simp only [outcomeText, List.append_assoc] at equal
          exact absurd equal (header_ne_errorLine _ _ _ _ _ _)
  | error errno text =>
      cases second with
      | rows fields rows =>
          simp only [outcomeText, List.append_assoc] at equal
          exact absurd equal.symm (header_ne_errorLine _ _ _ _ _ _)
      | error errno' text' =>
          obtain ⟨rfl, rfl, restEq⟩ := errorLine_inj plainFirst plainSecond equal
          exact ⟨rfl, restEq⟩

theorem outcomeText_ne_nil (outcome : Outcome) : outcomeText outcome ≠ [] := by
  cases outcome <;> simp [outcomeText, header, errorLine, ascii]

/-! ## What is sent -/

theorem cutRow_plain {fields : Nat} {row : List Cell} (width : row.length = fields)
    (plain : ∀ cell ∈ row, PlainCell cell) :
    (cutRow row).length = fields ∧ ∀ cell ∈ cutRow row, PlainCell cell := by
  refine ⟨by simpa [cutRow] using width, ?_⟩
  intro cell member
  obtain ⟨whole, inRow, rfl⟩ := List.mem_map.mp member
  obtain ⟨value, rfl, noTab, noNewline⟩ := plain whole inRow
  have shorter : cStr value ⊆ value := (List.takeWhile_prefix _).subset
  exact ⟨cStr value, rfl, fun tab => noTab (shorter tab),
    fun newline => noNewline (shorter newline)⟩

theorem PlainOutcome.cut {outcome : Outcome} (plain : PlainOutcome outcome) :
    PlainOutcome (cutOutcome outcome) := by
  cases outcome with
  | rows fields rows =>
      obtain ⟨fewRows, positive, fewFields, plainRows⟩ := plain
      refine ⟨by simpa using fewRows, positive, fewFields, ?_⟩
      intro row member
      obtain ⟨whole, inRows, rfl⟩ := List.mem_map.mp member
      exact cutRow_plain (plainRows whole inRows).1 (plainRows whole inRows).2
  | error errno text => exact plain

/-- For a plain outcome `process` returns the text of the outcome with its cells
cut. -/
theorem run_process_plain {answers : ClientAnswers}
    (plain : PlainOutcome answers.outcome) (cursor : RowCursor) :
    ∃ final, (process answers).run cursor =
      .ok (outcomeText (cutOutcome answers.outcome)) final := by
  cases stored : answers.mysqlStoreResult with
  | none =>
      refine ⟨cursor, ?_⟩
      rw [run_process_none stored]
      simp [ClientAnswers.outcome, stored, cutOutcome, outcomeText]
  | some result =>
      simp only [ClientAnswers.outcome, stored] at plain
      obtain ⟨fewRows, -, fewFields, plainRows⟩ := plain
      have strings : ∀ row ∈ result.rows, none ∉ row := by
        intro row member null
        obtain ⟨value, equal, -⟩ := (plainRows row member).2 none null
        simp at equal
      exact ⟨_, run_process_rows stored fewRows fewFields strings cursor⟩

/-- The outcomes of a sequence of statements, as far as they are sent. -/
def sentOutcomes (answers : List ClientAnswers) : List Outcome :=
  answers.map fun answer => cutOutcome answer.outcome

theorem run_processAll {answers : List ClientAnswers}
    (plain : ∀ answer ∈ answers, PlainOutcome answer.outcome) (cursor : RowCursor) :
    ∃ final, (processAll answers).run cursor =
      .ok ((sentOutcomes answers).flatMap outcomeText) final := by
  induction answers generalizing cursor with
  | nil => exact ⟨cursor, rfl⟩
  | cons answer answers ih =>
      obtain ⟨middle, first⟩ := run_process_plain (plain answer (by simp)) cursor
      obtain ⟨final, rest⟩ :=
        ih (fun other member => plain other (by simp [member])) middle
      refine ⟨final, ?_⟩
      simp only [processAll, EStateM.run_bind, first, rest, EStateM.run_pure]
      simp [sentOutcomes]

/-- Equal streams carry the same outcomes, as far as they are sent. -/
theorem stream_eq_iff {first second : List ClientAnswers}
    (plainFirst : ∀ answer ∈ first, PlainOutcome answer.outcome)
    (plainSecond : ∀ answer ∈ second, PlainOutcome answer.outcome) :
    (sentOutcomes first).flatMap outcomeText =
        (sentOutcomes second).flatMap outcomeText ↔
      sentOutcomes first = sentOutcomes second := by
  constructor
  · intro equal
    apply outcomeText_selfDelimiting.eq_of_flatMap_eq _ _ _ equal
    · intro outcome _
      exact outcomeText_ne_nil outcome
    · intro outcome member
      obtain ⟨answer, inList, rfl⟩ := List.mem_map.mp member
      exact (plainFirst answer inList).cut
    · intro outcome member
      obtain ⟨answer, inList, rfl⟩ := List.mem_map.mp member
      exact (plainSecond answer inList).cut
  · intro equal
    rw [equal]

/-- No cell has a zero byte. -/
def ZeroFree : Outcome → Prop
  | .rows _ rows => ∀ row ∈ rows, ∀ value, some value ∈ row → 0 ∉ value
  | .error _ _ => True

theorem ZeroFree.cut {outcome : Outcome} (zeroFree : ZeroFree outcome) :
    cutOutcome outcome = outcome := by
  cases outcome with
  | rows fields rows => rw [cutOutcome, map_cutRow_eq_self zeroFree]
  | error errno text => rfl

theorem sentOutcomes_eq_outcomes {answers : List ClientAnswers}
    (zeroFree : ∀ answer ∈ answers, ZeroFree answer.outcome) :
    sentOutcomes answers = answers.map (·.outcome) := by
  apply List.map_congr_left
  intro answer member
  exact (zeroFree answer member).cut

/-- Two sequences of plain outcomes can be told apart from their streams exactly
when they still differ with every cell cut at its first zero byte, and so always
when no cell has a zero byte. -/
theorem replies_decodable_iff {first second : List ClientAnswers}
    (plainFirst : ∀ answer ∈ first, PlainOutcome answer.outcome)
    (plainSecond : ∀ answer ∈ second, PlainOutcome answer.outcome)
    (cursor : RowCursor) :
    ∃ stream stream' final final',
      (processAll first).run cursor = .ok stream final ∧
        (processAll second).run cursor = .ok stream' final' ∧
          ((stream = stream' → first.map (·.outcome) = second.map (·.outcome)) ↔
            (sentOutcomes first = sentOutcomes second →
              first.map (·.outcome) = second.map (·.outcome))) ∧
            ((∀ answer ∈ first ++ second, ZeroFree answer.outcome) →
              stream = stream' → first.map (·.outcome) = second.map (·.outcome)) := by
  obtain ⟨final, ran⟩ := run_processAll plainFirst cursor
  obtain ⟨final', ran'⟩ := run_processAll plainSecond cursor
  have streams := stream_eq_iff plainFirst plainSecond
  refine ⟨_, _, final, final', ran, ran', ?_, ?_⟩
  · rw [streams]
  · intro zeroFree equal
    rw [← sentOutcomes_eq_outcomes fun answer member => zeroFree answer (by simp [member]),
      ← sentOutcomes_eq_outcomes fun answer member => zeroFree answer (by simp [member])]
    exact streams.mp equal

theorem oneCell_plain (value : Bytes) (noTab : 9 ∉ value) (noNewline : 10 ∉ value) :
    ∀ answer ∈ [tableAnswers (oneCell (some value))], PlainOutcome answer.outcome := by
  intro answer inList
  obtain rfl := List.mem_singleton.mp inList
  refine ⟨by simp [oneCell], le_refl 1, by simp [oneCell], ?_⟩
  intro row member
  obtain rfl : row = [some value] := by simpa [oneCell] using member
  refine ⟨rfl, ?_⟩
  intro cell inRow
  obtain rfl : cell = some value := by simpa using inRow
  exact ⟨value, rfl, noTab, noNewline⟩

/-- A table followed by an error is told from a table with another cell. -/
theorem replies_decodable_two_tables :
    ∃ stream stream' final final',
      (processAll [tableAnswers (oneCell (some [97])), mistakeAnswers]).run ⟨[], 0⟩ =
          .ok stream final ∧
        (processAll [tableAnswers (oneCell (some [98]))]).run ⟨[], 0⟩ =
            .ok stream' final' ∧
          stream ≠ stream' := by
  have plainFirst : ∀ answer ∈ [tableAnswers (oneCell (some [97])), mistakeAnswers],
      PlainOutcome answer.outcome := by
    intro answer member
    rcases List.mem_cons.mp member with table | last
    · exact oneCell_plain [97] (by decide) (by decide) answer (by simp [table])
    · obtain rfl := List.mem_singleton.mp last
      change 10 ∉ []
      simp
  have plainSecond := oneCell_plain [98] (by decide) (by decide)
  obtain ⟨stream, stream', final, final', ran, ran', decodable, -⟩ :=
    replies_decodable_iff plainFirst plainSecond ⟨[], 0⟩
  refine ⟨stream, stream', final, final', ran, ran', ?_⟩
  intro equal
  have outcomes := decodable.mpr (by decide) equal
  simp at outcomes

/-- A zero byte at the end of a cell leaves no trace in the stream. -/
theorem zero_byte_not_decodable :
    PlainOutcome (tableAnswers (oneCell (some [0]))).outcome ∧
      PlainOutcome (tableAnswers (oneCell (some []))).outcome ∧
        (tableAnswers (oneCell (some [0]))).outcome ≠
            (tableAnswers (oneCell (some []))).outcome ∧
          ∃ stream final final',
            (processAll [tableAnswers (oneCell (some [0]))]).run ⟨[], 0⟩ =
                .ok stream final ∧
              (processAll [tableAnswers (oneCell (some []))]).run ⟨[], 0⟩ =
                .ok stream final' := by
  have plain := oneCell_plain [0] (by decide) (by decide)
  have plain' := oneCell_plain [] (by decide) (by decide)
  obtain ⟨final, ran⟩ := run_processAll plain ⟨[], 0⟩
  obtain ⟨final', ran'⟩ := run_processAll plain' ⟨[], 0⟩
  exact ⟨plain _ (by simp), plain' _ (by simp), by decide, _, final, final', ran, ran'⟩

end MysqlServer

end TcpMysql
