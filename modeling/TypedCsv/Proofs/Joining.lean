import TypedCsv.Proofs.ErrorLines
import TypedCsv.Proofs.Framing.Joining

/-! # Files may be cut and joined between records

What is decoded of an input behind another one is what is decoded of each, up to places, if the
first one is empty or ends with a line feed that belongs to no cell (`Decoder.rows_joined`). A
comment at such a place changes nothing. -/

namespace TypedCsv.Decoder

open Framing

variable {d : Decoder} {source other : Source} {x : List UInt8} {y : Source}

/-- The outcomes of an input without their places. -/
def unplaced (d : Decoder) (source : Source) : List Outcome :=
  (d.outcomes source).map (Outcome.seen Fault.unplaced)

/-- The items of an input without places are those of its outcomes without places. -/
theorem decoded_unplaced (d : Decoder) (source : Source) :
    d.decoded 0 (d.unplaced source) =
      (seen Fault.unplaced (d.rows source).items.1, (d.rows source).items.2.skipped) := by
  rw [unplaced, decoded_map_seen (fun _ _ => rfl), items_rows, skipped_rows]

/-- The rows of an input do not depend on the places of its records. -/
theorem found_eq_decoded_unplaced (d : Decoder) (source : Source) :
    (d.rows source).found = rowsOf (d.decoded 0 (d.unplaced source)).1 := by
  rw [decoded_unplaced, rowsOf_seen, Rows.found]

/-- Inputs with the same outcomes up to places are decoded alike. -/
theorem rows_congr (h : d.unplaced source = d.unplaced other) :
    (d.rows source).found = (d.rows other).found ∧
      seen Fault.unplaced (d.rows source).items.1 = seen Fault.unplaced (d.rows other).items.1 ∧
      (d.rows source).items.2.skipped = (d.rows other).items.2.skipped := by
  rw [found_rows, found_rows, items_rows, items_rows, skipped_rows, skipped_rows]
  exact decoded_congr_seen (fun _ _ => rfl) rfl (fun _ => rfl) h 0

/-- Some bytes alone hold records only: they cannot fail. -/
theorem isRecord_of_mem_unplaced (d : Decoder) (x : List UInt8) :
    ∀ outcome ∈ d.unplaced (.ofBytes x), outcome.isRecord = true := by
  intro outcome hmem
  obtain ⟨found, hfound, rfl⟩ := List.mem_map.1 hmem
  rw [Outcome.isRecord_seen]
  exact isRecord_of_mem_outcomes d.dialect x found hfound

/-- Without an error the strict policy finds rows only. -/
theorem decoded_strict_of_isOk {skipped : Nat} {outcomes : List Outcome} (hp : d.policy = .strict)
    (hok : ∀ item ∈ (d.decoded skipped outcomes).1, item.1.isOk = true) :
    (d.decoded skipped outcomes).1 =
      (rowsOf (d.decoded skipped outcomes).1).map fun row => (.ok row, skipped) := by
  obtain ⟨-, ending, hitems, hending⟩ := decoded_strict hp skipped outcomes
  obtain rfl | ⟨error, rfl⟩ := hending
  · rw [List.append_nil] at hitems
    exact hitems
  · have herror := hok (.error error, skipped) (by rw [hitems]; simp)
    cases herror

section Joined

variable (hdelimiter : d.dialect.delimiter ≠ Source.lineFeed)
  (hquote : d.dialect.quote ≠ some Source.lineFeed) (hx : IsWhole d.dialect x)

include hdelimiter hquote hx

/-- What is found in a whole input in front of another is found in each of them alone. -/
theorem unplaced_behind (hy : d.dialect.quote.isSome → ¬ Quoted.byteOrderMark <+: y.bytes) :
    d.unplaced (y.behind x) = d.unplaced (.ofBytes x) ++ d.unplaced y :=
  outcomes_joined hdelimiter hquote hx hy

/-- A comment changes nothing between records. -/
theorem unplaced_comment (hy : d.dialect.quote.isSome → ¬ Quoted.byteOrderMark <+: y.bytes)
    (hcomment : d.dialect.comment = some Dialect.hash) {text : List UInt8}
    (htext : Source.lineFeed ∉ text) :
    d.unplaced ((y.behind (commentLine text)).behind x) = d.unplaced (y.behind x) := by
  have hnone : d.unplaced (.ofBytes (commentLine text)) = [] := by
    rw [unplaced, outcomes, outcomes_commentLine hcomment htext, List.map_nil]
  have hbehind : d.dialect.quote.isSome →
      ¬ Quoted.byteOrderMark <+: (y.behind (commentLine text)).bytes :=
    fun _ => not_mark_prefix_commentLine text y.bytes
  rw [unplaced_behind hdelimiter hquote hx hbehind,
    unplaced_behind hdelimiter hquote (isWhole_commentLine hcomment htext) hy, hnone,
    List.nil_append, unplaced_behind hdelimiter hquote hx hy]

/-- Behind a whole input that leaves no error the decoding goes on. -/
theorem decoded_behind (hy : d.dialect.quote.isSome → ¬ Quoted.byteOrderMark <+: y.bytes)
    (hok : ∀ item ∈ (d.rows (.ofBytes x)).items.1, item.1.isOk = true) :
    d.decoded 0 (d.unplaced (y.behind x)) =
      ((d.decoded 0 (d.unplaced (.ofBytes x))).1 ++
          (d.decoded (d.rows (.ofBytes x)).items.2.skipped (d.unplaced y)).1,
        (d.decoded (d.rows (.ofBytes x)).items.2.skipped (d.unplaced y)).2) := by
  have hseen : ∀ item ∈ (d.decoded 0 (d.unplaced (.ofBytes x))).1, item.1.isOk = true := by
    rw [decoded_unplaced]
    exact isOk_of_mem_seen hok
  rw [unplaced_behind hdelimiter hquote hx hy,
    decoded_append (isRecord_of_mem_unplaced d x) hseen, decoded_unplaced d (.ofBytes x)]

/-- **Files may be cut and joined between records.** Let an input be empty or end with a line feed
that belongs to no cell, and let another one follow that does not start with a byte order mark.
Then the lenient policy finds the rows of the first and then those of the second, and skips the
records that it skips in either. The strict policy finds the rows of the first and then the items of
the second, up to places, if the first leaves no error, and else what it finds in the first. Under
either policy a comment between the two changes nothing. -/
theorem rows_joined (hy : d.dialect.quote.isSome → ¬ Quoted.byteOrderMark <+: y.bytes) :
    (d.policy = .lenient →
      (d.rows (y.behind x)).found = (d.rows (.ofBytes x)).found ++ (d.rows y).found ∧
      (d.rows (y.behind x)).items.2.skipped =
        (d.rows (.ofBytes x)).items.2.skipped + (d.rows y).items.2.skipped) ∧
    (d.policy = .strict →
      ((∀ item ∈ (d.rows (.ofBytes x)).items.1, item.1.isOk = true) →
        seen Fault.unplaced (d.rows (y.behind x)).items.1 =
          (d.rows (.ofBytes x)).found.map (fun row => (.ok row, 0)) ++
            seen Fault.unplaced (d.rows y).items.1) ∧
      ((∃ item ∈ (d.rows (.ofBytes x)).items.1, item.1.isOk = false) →
        seen Fault.unplaced (d.rows (y.behind x)).items.1 =
          seen Fault.unplaced (d.rows (.ofBytes x)).items.1)) ∧
    (d.dialect.comment = some Dialect.hash → ∀ text, Source.lineFeed ∉ text →
      (d.rows ((y.behind (commentLine text)).behind x)).found = (d.rows (y.behind x)).found ∧
      seen Fault.unplaced (d.rows ((y.behind (commentLine text)).behind x)).items.1 =
        seen Fault.unplaced (d.rows (y.behind x)).items.1 ∧
      (d.rows ((y.behind (commentLine text)).behind x)).items.2.skipped =
        (d.rows (y.behind x)).items.2.skipped) := by
  refine ⟨fun hp => ?_, fun hp => ⟨fun hok => ?_, fun herror => ?_⟩, fun hcomment text htext => ?_⟩
  · have hok : ∀ item ∈ (d.rows (.ofBytes x)).items.1, item.1.isOk = true := by
      rw [items_rows]
      exact isOk_of_lenient hp (isRecord_of_mem_outcomes d.dialect x)
    have hjoined := decoded_behind hdelimiter hquote hx hy hok
    obtain ⟨hrows, hskipped⟩ :=
      d.decoded_add (d.rows (.ofBytes x)).items.2.skipped (d.unplaced y)
    have htotal := congrArg Prod.snd hjoined
    rw [decoded_unplaced, hskipped, decoded_unplaced] at htotal
    refine ⟨?_, htotal⟩
    rw [found_eq_decoded_unplaced, hjoined, rowsOf, List.filterMap_append, ← rowsOf, ← rowsOf,
      hrows, ← found_eq_decoded_unplaced, ← found_eq_decoded_unplaced]
  · have hjoined := congrArg Prod.fst (decoded_behind hdelimiter hquote hx hy hok)
    have hskipped : (d.rows (.ofBytes x)).items.2.skipped = 0 := by
      rw [skipped_rows]
      exact (decoded_strict hp 0 _).1
    have hseen : ∀ item ∈ (d.decoded 0 (d.unplaced (.ofBytes x))).1, item.1.isOk = true := by
      rw [decoded_unplaced]
      exact isOk_of_mem_seen hok
    have hfirst := decoded_strict_of_isOk hp hseen
    rw [← found_eq_decoded_unplaced] at hfirst
    rw [hskipped, hfirst, decoded_unplaced, decoded_unplaced] at hjoined
    exact hjoined
  · obtain ⟨⟨⟨error⟩ | ⟨row⟩, n⟩, hmem, hisOk⟩ := herror
    · have hseen : (.error (error.seen Fault.unplaced), n) ∈
          (d.decoded 0 (d.unplaced (.ofBytes x))).1 := by
        rw [decoded_unplaced]
        exact List.mem_map_of_mem hmem
      have hjoined := decoded_unplaced d (y.behind x)
      rw [unplaced_behind hdelimiter hquote hx hy, decoded_append_of_error hp hseen,
        decoded_unplaced] at hjoined
      exact (congrArg Prod.fst hjoined).symm
    · cases hisOk
  · exact rows_congr (unplaced_comment hdelimiter hquote hx hy hcomment htext)

end Joined

/-- A record in quotes, and a comment behind it. -/
def firstPart : List UInt8 :=
  Utf8.encode "\"1\"\r\n#\"\n".toList

/-- A record that can be read and one that cannot. -/
def secondPart : Source :=
  .ofBytes (Utf8.encode "2\nx\n".toList)

/-- The two parts together hold the records of both. -/
theorem rows_joined_parts :
    seen Fault.unplaced ((counter (some Dialect.doubleQuote) (some Dialect.hash)).rows
        (secondPart.behind firstPart)).items.1 =
      [(.ok [some (.integer 1)], 0), (.ok [some (.integer 2)], 0),
        (.error (.cell 0 countFault), 0)] := by
  have hx : IsWhole (counter (some Dialect.doubleQuote) (some Dialect.hash)).dialect firstPart :=
    Or.inr ⟨Utf8.encode "\"1\"\r\n#\"".toList, by decide, by decide +kernel⟩
  have hfirst : (counter (some Dialect.doubleQuote) (some Dialect.hash)).outcomes
      (.ofBytes firstPart) = [.record 1 ["1"]] := by decide +kernel
  have hsecond : (counter (some Dialect.doubleQuote) (some Dialect.hash)).outcomes secondPart =
      [.record 1 ["2"], .record 2 ["x"]] := by decide +kernel
  have hrow : ((counter (some Dialect.doubleQuote) (some Dialect.hash)).rows
      (.ofBytes firstPart)).items.1 = [(.ok [some (.integer 1)], 0)] := by
    rw [items_rows, hfirst]
    cbv
  have hrows : ((counter (some Dialect.doubleQuote) (some Dialect.hash)).rows
      secondPart).items.1 =
      [(.ok [some (.integer 2)], 0), (.error (.cell 2 countFault), 0)] := by
    rw [items_rows, hsecond]
    cbv
  have hjoined := ((rows_joined (d := counter (some Dialect.doubleQuote) (some Dialect.hash))
    (y := secondPart) (by decide) (by decide) hx (by decide)).2.1 rfl).1
    (by rw [hrow]; simp)
  rw [hjoined, Rows.found, hrow, hrows]
  rfl

end TypedCsv.Decoder
