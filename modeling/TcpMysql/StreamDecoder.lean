import Mathlib.Data.List.Basic

/-!
# Decoding a stream that arrives in pieces

A decoder looks at the symbols that have arrived: they may not be enough to decide,
they may start with an item, or they may be wrong.  What it has decided it must not
revise when more symbols arrive.  Then what comes out of a stream does not depend on
how the stream is cut into pieces.
-/

/-- What a decoder finds at the front of its input. -/
inductive Decoded (Symbol Item Error : Type)
  | incomplete
  | item (value : Item) (rest : List Symbol)
  | failed (error : Error)
  deriving DecidableEq, Repr

/-- The same finding, with more symbols behind it. -/
def Decoded.append {Symbol Item Error : Type} (more : List Symbol) :
    Decoded Symbol Item Error → Decoded Symbol Item Error
  | .incomplete => .incomplete
  | .item value rest => .item value (rest ++ more)
  | .failed error => .failed error

structure StreamDecoder (Symbol Item Error : Type) where
  next : List Symbol → Decoded Symbol Item Error
  next_nil : next [] = .incomplete
  next_append : ∀ input more, next input ≠ .incomplete →
    next (input ++ more) = (next input).append more
  rest_lt : ∀ {input rest : List Symbol} {value : Item},
    next input = .item value rest → rest.length < input.length

namespace StreamDecoder

variable {Symbol Item Error : Type}

/-- What was taken from an input, the error that stopped it, and what is left. -/
structure Drained (Symbol Item Error : Type) where
  items : List Item
  error : Option Error
  rest : List Symbol
  deriving DecidableEq, Repr

/-- Take items while there are any, at most as many as there is fuel. -/
def drainWith (next : List Symbol → Decoded Symbol Item Error) :
    Nat → List Symbol → Drained Symbol Item Error
  | 0, input => ⟨[], none, input⟩
  | fuel + 1, input =>
      match next input with
      | .incomplete => ⟨[], none, input⟩
      | .failed error => ⟨[], some error, input⟩
      | .item value rest =>
          let later := drainWith next fuel rest
          ⟨value :: later.items, later.error, later.rest⟩

variable (decoder : StreamDecoder Symbol Item Error)

/-- Take all items from an input. -/
def drain (input : List Symbol) : Drained Symbol Item Error :=
  drainWith decoder.next (input.length + 1) input

/-- One more piece has arrived. -/
def feed (before : Drained Symbol Item Error) (piece : List Symbol) :
    Drained Symbol Item Error :=
  let now := decoder.drain (before.rest ++ piece)
  ⟨before.items ++ now.items, now.error, now.rest⟩

/-- All pieces, one after the other. -/
def feedAll (pieces : List (List Symbol)) : Drained Symbol Item Error :=
  pieces.foldl decoder.feed ⟨[], none, []⟩

/-- More fuel than symbols is enough. -/
theorem drainWith_eq_drain {fuel : Nat} {input : List Symbol} (enough : input.length < fuel) :
    drainWith decoder.next fuel input = decoder.drain input := by
  suffices general : ∀ fuel fuel' (input : List Symbol), input.length < fuel →
      input.length < fuel' →
        drainWith decoder.next fuel input = drainWith decoder.next fuel' input from
    general fuel _ input enough (Nat.lt_succ_self _)
  intro fuel
  induction fuel with
  | zero => intro fuel' input enough; omega
  | succ fuel ih =>
      intro fuel' input enough enough'
      cases fuel' with
      | zero => omega
      | succ fuel' =>
          simp only [drainWith]
          cases nextEq : decoder.next input with
          | incomplete => rfl
          | failed error => rfl
          | item value rest =>
              have shorter := decoder.rest_lt nextEq
              simp only [ih fuel' rest (by omega) (by omega)]

variable {decoder}

theorem item_append {input rest : List Symbol} {value : Item}
    (nextEq : decoder.next input = .item value rest) (more : List Symbol) :
    decoder.next (input ++ more) = .item value (rest ++ more) := by
  rw [decoder.next_append input more (by simp [nextEq]), nextEq, Decoded.append]

theorem failed_append {input : List Symbol} {error : Error}
    (nextEq : decoder.next input = .failed error) (more : List Symbol) :
    decoder.next (input ++ more) = .failed error := by
  rw [decoder.next_append input more (by simp [nextEq]), nextEq, Decoded.append]

theorem drain_incomplete {input : List Symbol} (nextEq : decoder.next input = .incomplete) :
    decoder.drain input = ⟨[], none, input⟩ := by
  simp only [drain, drainWith, nextEq]

theorem drain_failed {input : List Symbol} {error : Error}
    (nextEq : decoder.next input = .failed error) :
    decoder.drain input = ⟨[], some error, input⟩ := by
  simp only [drain, drainWith, nextEq]

theorem drain_item {input rest : List Symbol} {value : Item}
    (nextEq : decoder.next input = .item value rest) :
    decoder.drain input =
      ⟨value :: (decoder.drain rest).items, (decoder.drain rest).error,
        (decoder.drain rest).rest⟩ := by
  rw [drain]
  simp only [drainWith, nextEq]
  rw [decoder.drainWith_eq_drain (decoder.rest_lt nextEq)]

theorem rest_drain_le (decoder : StreamDecoder Symbol Item Error) (input : List Symbol) :
    (decoder.drain input).rest.length ≤ input.length := by
  induction lengthEq : input.length using Nat.strongRecOn generalizing input with
  | _ length ih =>
      subst lengthEq
      cases nextEq : decoder.next input with
      | incomplete => simp [drain_incomplete nextEq]
      | failed error => simp [drain_failed nextEq]
      | item value rest =>
          have shorter := decoder.rest_lt nextEq
          rw [drain_item nextEq]
          exact Nat.le_trans (ih _ shorter rest rfl) (Nat.le_of_lt shorter)

/-- A piece leaves no more behind than there is. -/
theorem rest_feed_le (decoder : StreamDecoder Symbol Item Error)
    (before : Drained Symbol Item Error) (piece : List Symbol) :
    (decoder.feed before piece).rest.length ≤ before.rest.length + piece.length := by
  rw [← List.length_append]
  exact decoder.rest_drain_le _

/-- What comes out of a longer input: the items of the first part, and then what comes
out of its rest with the second part. -/
theorem drain_append (input more : List Symbol) :
    decoder.drain (input ++ more) = decoder.feed (decoder.drain input) more := by
  induction lengthEq : input.length using Nat.strongRecOn generalizing input with
  | _ length ih =>
      subst lengthEq
      cases nextEq : decoder.next input with
      | incomplete => simp [drain_incomplete nextEq, feed]
      | failed error =>
          simp [drain_failed nextEq, drain_failed (failed_append nextEq more), feed]
      | item value rest =>
          have later := ih _ (decoder.rest_lt nextEq) rest rfl
          rw [drain_item (item_append nextEq more), drain_item nextEq, later]
          simp [feed]

/-- However a stream is cut, the same items come out, the same error is found, and the
same symbols are left. -/
theorem feedAll_eq_drain (pieces : List (List Symbol)) :
    decoder.feedAll pieces = decoder.drain pieces.flatten := by
  suffices general : ∀ done, pieces.foldl decoder.feed (decoder.drain done) =
      decoder.drain (done ++ pieces.flatten) by
    have start : decoder.drain [] = ⟨[], none, []⟩ := drain_incomplete decoder.next_nil
    rw [feedAll, ← start, general, List.nil_append]
  induction pieces with
  | nil => simp
  | cons piece pieces ih =>
      intro done
      rw [List.foldl_cons, ← drain_append, ih, List.flatten_cons, List.append_assoc]

/-- Items that were encoded in a way that the decoder undoes come out again, and then
what comes out of the rest of the stream. -/
theorem drain_encoded {Source : Type} {encode : Source → List Symbol} {value : Source → Item}
    {sources : List Source}
    (undoes : ∀ source ∈ sources, ∀ more,
      decoder.next (encode source ++ more) = .item (value source) more)
    (more : List Symbol) :
    decoder.drain (sources.flatMap encode ++ more) =
      ⟨sources.map value ++ (decoder.drain more).items, (decoder.drain more).error,
        (decoder.drain more).rest⟩ := by
  induction sources with
  | nil => rfl
  | cons source sources ih =>
      have later := ih fun other member => undoes other (List.mem_cons_of_mem _ member)
      rw [List.flatMap_cons, List.append_assoc,
        drain_item (undoes source List.mem_cons_self _), later]
      rfl

end StreamDecoder
