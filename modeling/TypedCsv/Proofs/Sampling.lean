import Mathlib
import TypedCsv.Estimate
import TypedCsv.Proofs.Source
import TypedCsv.Proofs.Steps

/-! # What an estimate is made of

The lines of some files are those of the first file, then those of the second, and so on
(`SampleFile.lines`). A sample holds the sizes of all files and the first lines up to the cap,
across the bounds of files; it fails exactly if a file has no size, or if a file that is reached
below the cap cannot be read as far as its lines are wanted (`Sample.Obtainable`).

* `Sample.readLines_eq_ok_iff`: the lines of one file.
* `Sample.foldlM_addFile_eq_ok_iff`: a sample with some files more.
* `Sample.estimate_of_sampled_lines`: what becomes of some files. -/

namespace TypedCsv

namespace Source

/-- The lines of some bytes without their line feeds. What stands behind the last line feed is a
line if it is not empty. -/
def linesOf : List UInt8 → List (List UInt8)
  | [] => []
  | byte :: bytes =>
    if byte = lineFeed then [] :: linesOf bytes
    else
      match linesOf bytes with
      | [] => [[byte]]
      | line :: lines => (byte :: line) :: lines

/-- Without bytes there are no lines. -/
@[simp] theorem linesOf_nil : linesOf [] = [] := rfl

/-- A line feed ends a line, and the other lines stand behind it. -/
theorem linesOf_append_lineFeed {line : List UInt8} (h : lineFeed ∉ line) (tail : List UInt8) :
    linesOf (line ++ lineFeed :: tail) = line :: linesOf tail := by
  induction line with
  | nil => simp [linesOf]
  | cons byte line ih =>
    obtain ⟨hne, hline⟩ := not_or.1 (mt List.mem_cons.2 h)
    rw [List.cons_append, linesOf, if_neg (Ne.symm hne), ih hline]

/-- Bytes without a line feed are one line. -/
theorem linesOf_of_not_mem {line : List UInt8} (h : lineFeed ∉ line) (hne : line ≠ []) :
    linesOf line = [line] := by
  induction line with
  | nil => exact absurd rfl hne
  | cons byte line ih =>
    obtain ⟨hbyte, hline⟩ := not_or.1 (mt List.mem_cons.2 h)
    rw [linesOf, if_neg (Ne.symm hbyte)]
    by_cases hlast : line = []
    · rw [hlast, linesOf_nil]
    · rw [ih hline hlast]

end Source

open Source (lineFeed carriageReturn linesOf)

namespace SampleFile

/-- The size of a file; a file that cannot be sized has none. -/
def knownSize (file : SampleFile) : Nat :=
  match file.size with
  | .ok size => size
  | .error _ => 0

/-- The lines of a file; a file that cannot be opened has none. -/
def lines (file : SampleFile) : List (List UInt8) :=
  match file.content with
  | .ok source => linesOf source.bytes
  | .error _ => []

/-- Whether a file opens and can be read up to its end, or at least as far as it has the number of
lines that is wanted. -/
def Yields (file : SampleFile) (wanted : Nat) : Prop :=
  ∃ source, file.content = .ok source ∧
    (source.ending = .complete ∨ wanted ≤ source.bytes.count lineFeed)

end SampleFile

namespace Sample

/-! ## One file -/

/-- The size of the text of a line. A carriage return at its end does not belong to the text. -/
def textSize (line : List UInt8) : Nat :=
  if line.getLast? = some carriageReturn then line.length - 1 else line.length

/-- The line feed at the end of a line does not count. -/
theorem contentSize_append_lineFeed (line : List UInt8) :
    contentSize (line ++ [lineFeed]) = textSize line := by
  unfold contentSize textSize
  simp only [List.getLast?_append, List.getLast?_singleton, Option.some_or, if_true,
    List.dropLast_concat]
  split <;> simp

/-- A line without a line feed counts as its text. -/
theorem contentSize_of_not_mem {line : List UInt8} (h : lineFeed ∉ line) :
    contentSize line = textSize line := by
  have hlast : line.getLast? ≠ some lineFeed := fun hl => h (List.mem_of_getLast? hl)
  unfold contentSize textSize
  simp only [if_neg hlast]
  split <;> simp

/-- The sample with some lines more. -/
def addLines (s : Sample) (lines : List (List UInt8)) : Sample :=
  { s with
    rows := s.rows + lines.length
    rowBytes := s.rowBytes + (lines.map fun line => textSize line + 1).sum }

/-- Each line is one row. -/
@[simp] theorem rows_addLines (s : Sample) (lines : List (List UInt8)) :
    (s.addLines lines).rows = s.rows + lines.length := rfl

/-- Lines do not change the size of the files. -/
@[simp] theorem totalBytes_addLines (s : Sample) (lines : List (List UInt8)) :
    (s.addLines lines).totalBytes = s.totalBytes := rfl

/-- Without lines a sample stays as it is. -/
@[simp] theorem addLines_nil (s : Sample) : s.addLines [] = s := rfl

/-- Lines are added one after the other. -/
theorem addLines_append (s : Sample) (xs ys : List (List UInt8)) :
    s.addLines (xs ++ ys) = (s.addLines xs).addLines ys := by
  simp [addLines, Nat.add_assoc]

/-- A line counts as its text. -/
theorem addLine_eq {line text : List UInt8} (h : contentSize line = textSize text) (s : Sample) :
    s.addLine line = s.addLines [text] := by
  simp [addLine, addLines, h]

/-- **The lines of one file.** They are read up to the cap, which a failure of the file must not
come before. -/
theorem readLines_eq_ok_iff {s t : Sample} {source : Source} (h : s.rows ≤ cap) :
    s.readLines source = .ok t ↔
      (source.ending = .complete ∨ cap - s.rows ≤ source.bytes.count lineFeed) ∧
        s.addLines ((linesOf source.bytes).take (cap - s.rows)) = t := by
  fun_induction readLines s source with
  | case1 s source hrows hread =>
    obtain ⟨hbytes, hend⟩ := Source.of_readLine_eq_ended hread
    simp [hbytes, hend]
  | case2 s source hrows fault hread =>
    obtain ⟨hmem, hend⟩ := Source.of_readLine_eq_failed hread
    have hwanted : ¬ cap ≤ s.rows := by omega
    simp [hend, List.count_eq_zero_of_not_mem hmem, Nat.sub_eq_zero_iff_le, hwanted]
  | case3 s source hrows line rest hread ih =>
    have hwanted : cap - s.rows = cap - (s.rows + 1) + 1 := by omega
    obtain ⟨hend, ⟨body, hbody, rfl, hbytes⟩ | ⟨hline, hne, hbytes, hrest, hcomplete⟩⟩ :=
      Source.of_readLine_eq_line hread
    · -- a line with its line feed
      rw [ih hrows, addLine_eq (contentSize_append_lineFeed body),
        hbytes, Source.linesOf_append_lineFeed hbody, hend, rows_addLines, hwanted,
        List.take_succ_cons, List.count_append, List.count_eq_zero_of_not_mem hbody,
        List.count_cons_self, Nat.zero_add, Nat.add_le_add_iff_right]
      rw [← addLines_append]
      rfl
    · -- the last line of a file, without a line feed
      rw [ih hrows, addLine_eq (contentSize_of_not_mem hline), hbytes,
        Source.linesOf_of_not_mem hline hne, hend, hcomplete, hrest, hwanted]
      simp
  | case4 s source hrows =>
    have hfull : cap - s.rows = 0 := by omega
    simp [hfull]

/-! ## Several files -/

/-- The size of some files together. -/
def totalSize (files : List SampleFile) : Nat :=
  (files.map SampleFile.knownSize).sum

/-- The lines of some files, file by file. -/
def linesIn (files : List SampleFile) : List (List UInt8) :=
  files.flatMap SampleFile.lines

/-- The size of no files is zero. -/
@[simp] theorem totalSize_nil : totalSize [] = 0 := rfl

/-- The sizes of files add up. -/
@[simp] theorem totalSize_cons (file : SampleFile) (files : List SampleFile) :
    totalSize (file :: files) = file.knownSize + totalSize files := rfl

/-- Without files there are no lines. -/
@[simp] theorem linesIn_nil : linesIn [] = [] := rfl

/-- The lines of files stand one behind the other. -/
@[simp] theorem linesIn_cons (file : SampleFile) (files : List SampleFile) :
    linesIn (file :: files) = file.lines ++ linesIn files := rfl

/-- Whether so many lines can be had from some files: all files have a size, and each that is
reached while lines are still wanted yields them as far as it has them. -/
def Obtainable (wanted : Nat) (files : List SampleFile) : Prop :=
  (∀ file ∈ files, file.size.isOk = true) ∧
    ∀ before file after, files = before ++ file :: after →
      (linesIn before).length < wanted →
        file.Yields (wanted - (linesIn before).length)

/-- Without files there is none that could fail. -/
theorem obtainable_nil (wanted : Nat) : Obtainable wanted [] :=
  ⟨by simp, fun before file after h => by simp at h⟩

/-- Lines are had from a file first, and those that it does not have from the files behind it. -/
theorem obtainable_cons_iff {wanted : Nat} {file : SampleFile} {files : List SampleFile} :
    Obtainable wanted (file :: files) ↔
      file.size.isOk = true ∧ (0 < wanted → file.Yields wanted) ∧
        Obtainable (wanted - file.lines.length) files := by
  simp only [Obtainable, List.forall_mem_cons]
  constructor
  · rintro ⟨⟨hsize, hsizes⟩, hreached⟩
    refine ⟨hsize, hreached [] file files rfl, hsizes, fun before other after h hlines => ?_⟩
    have := hreached (file :: before) other after (by rw [h]; rfl)
    simp only [linesIn_cons, List.length_append] at this
    rw [Nat.sub_sub]
    exact this (by omega)
  · rintro ⟨hsize, hfile, hsizes, hreached⟩
    refine ⟨⟨hsize, hsizes⟩, fun before other after h hlines => ?_⟩
    cases before with
    | nil =>
      cases h
      exact hfile hlines
    | cons first before =>
      cases h
      simp only [linesIn_cons, List.length_append] at hlines ⊢
      rw [← Nat.sub_sub]
      exact hreached before other after rfl (by omega)

/-- The sample with the size of a file. -/
def addSize (s : Sample) (size : Nat) : Sample :=
  { s with totalBytes := (s.totalBytes + size) % countBound }

/-- A file that has a size is opened only below the cap. -/
theorem addFile_of_size {s : Sample} {file : SampleFile} {size : Nat} (h : file.size = .ok size) :
    s.addFile file = if s.rows < cap then file.content >>= (s.addSize size).readLines
      else .ok (s.addSize size) := by
  rw [addFile, h]
  rfl

/-- **One file more.** It adds its size, and its lines up to the cap. -/
theorem addFile_eq_ok_iff {s t : Sample} {file : SampleFile} (h : s.rows ≤ cap) :
    s.addFile file = .ok t ↔
      file.size.isOk = true ∧ (0 < cap - s.rows → file.Yields (cap - s.rows)) ∧
        (s.addSize file.knownSize).addLines (file.lines.take (cap - s.rows)) = t := by
  cases hsize : file.size with
  | error fault => simp [addFile, hsize, Bind.bind, Except.bind]
  | ok size =>
    rw [addFile_of_size hsize, SampleFile.knownSize, hsize, Except.isOk_ok]
    by_cases hrows : s.rows < cap
    · have hwanted : 0 < cap - s.rows := by omega
      rw [if_pos hrows]
      cases hcontent : file.content with
      | error fault => simp [SampleFile.Yields, hcontent, hwanted, Bind.bind, Except.bind]
      | ok source =>
        have hread : (s.addSize size).readLines source = .ok t ↔ _ := readLines_eq_ok_iff h
        simp only [SampleFile.Yields, SampleFile.lines, hcontent, Except.ok.injEq, hwanted,
          exists_eq_left', forall_const, true_and]
        exact hread
    · -- a file after the cap is not opened
      have hfull : cap - s.rows = 0 := by omega
      simp [hrows, hfull]

/-- The lines of the first of two lists that are wanted, and then those of the second. -/
theorem addLines_take_append (s : Sample) (xs ys : List (List UInt8)) (wanted : Nat) :
    s.addLines ((xs ++ ys).take wanted) =
      (s.addLines (xs.take wanted)).addLines (ys.take (wanted - xs.length)) := by
  rw [List.take_append, addLines_append]

/-- **Some files more.** They add their sizes, and their lines up to the cap. -/
theorem foldlM_addFile_eq_ok_iff {s t : Sample} {files : List SampleFile} (hrows : s.rows ≤ cap)
    (hsize : s.totalBytes + totalSize files < countBound) :
    files.foldlM addFile s = .ok t ↔
      Obtainable (cap - s.rows) files ∧
        { s.addLines ((linesIn files).take (cap - s.rows)) with
          totalBytes := s.totalBytes + totalSize files } = t := by
  induction files generalizing s with
  | nil => simp [obtainable_nil, pure, Except.pure, addLines]
  | cons file files ih =>
    rw [totalSize_cons] at hsize ⊢
    have htotal : (s.totalBytes + file.knownSize) % countBound = s.totalBytes + file.knownSize :=
      Nat.mod_eq_of_lt (by omega)
    let u := (s.addSize file.knownSize).addLines (file.lines.take (cap - s.rows))
    -- what is wanted of the other files
    have hurows : u.rows = s.rows + min (cap - s.rows) file.lines.length := by
      simp [u, addSize, List.length_take]
    have hwanted : cap - u.rows = cap - s.rows - file.lines.length := by omega
    have hutotal : u.totalBytes = s.totalBytes + file.knownSize := by simp [u, addSize, htotal]
    have hother := ih (s := u) (by omega) (by omega)
    rw [hwanted, hutotal] at hother
    have hsame : s.addLines ((linesIn (file :: files)).take (cap - s.rows)) =
        { u.addLines ((linesIn files).take (cap - s.rows - file.lines.length)) with
          totalBytes := s.totalBytes } := by
      rw [linesIn_cons, addLines_take_append]
      rfl
    rw [hsame, ← Nat.add_assoc, List.foldlM_cons, Except.bind_eq_ok_iff, obtainable_cons_iff]
    constructor
    · rintro ⟨v, hv, hfiles⟩
      obtain ⟨hok, hyields, rfl⟩ := (addFile_eq_ok_iff hrows).1 hv
      obtain ⟨hobtain, rfl⟩ := hother.1 hfiles
      exact ⟨⟨hok, hyields, hobtain⟩, rfl⟩
    · rintro ⟨⟨hok, hyields, hobtain⟩, rfl⟩
      exact ⟨u, (addFile_eq_ok_iff hrows).2 ⟨hok, hyields, rfl⟩, hother.2 ⟨hobtain, rfl⟩⟩

/-- The sample that some files should have. -/
def ofFiles (files : List SampleFile) : Sample where
  totalBytes := totalSize files
  rows := min cap (linesIn files).length
  rowBytes := (((linesIn files).take cap).map fun line => textSize line + 1).sum

/-- A sample can be taken exactly if its lines can be had, and then it is the one it should be. -/
theorem take_eq_ok_iff {files : List SampleFile} (hsize : totalSize files < countBound)
    {s : Sample} : take files = .ok s ↔ Obtainable cap files ∧ ofFiles files = s := by
  have hfold : files.foldlM addFile empty = .ok s ↔ _ :=
    foldlM_addFile_eq_ok_iff (Nat.zero_le _) (by simpa [empty] using hsize)
  have hfiles : { empty.addLines ((linesIn files).take cap) with
      totalBytes := empty.totalBytes + totalSize files } = ofFiles files := by
    simp [empty, addLines, ofFiles]
  rwa [show cap - empty.rows = cap from rfl, hfiles] at hfold

/-- A file that comes after the cap is sized, but its content makes no difference. -/
theorem take_congr {before after : List SampleFile} {file : SampleFile}
    (hsize : totalSize before < countBound) (h : cap ≤ (linesIn before).length)
    (content : Except IoFault Source) :
    take (before ++ { file with content } :: after) = take (before ++ file :: after) := by
  have happend (files : List SampleFile) :
      take (before ++ files) = take before >>= files.foldlM addFile := List.foldlM_append
  rw [happend, happend]
  cases htake : take before with
  | error fault => rfl
  | ok s =>
    obtain ⟨-, rfl⟩ := (take_eq_ok_iff hsize).1 htake
    have hfull : ¬ (ofFiles before).rows < cap := by
      rw [ofFiles, Nat.min_eq_left h]
      exact Nat.lt_irrefl cap
    have hsame : (ofFiles before).addFile { file with content } = (ofFiles before).addFile file := by
      simp only [addFile, hfull, if_false]
    show (_ :: after).foldlM addFile _ = (_ :: after).foldlM addFile _
    rw [List.foldlM_cons, List.foldlM_cons, hsame]

/-! ## The estimate -/

/-- Every line counts at least one byte. -/
theorem length_le_sum_textSize (lines : List (List UInt8)) :
    lines.length ≤ (lines.map fun line => textSize line + 1).sum := by
  induction lines with
  | nil => exact Nat.le_refl 0
  | cons line lines ih =>
    rw [List.length_cons, List.map_cons, List.sum_cons]
    omega

/-- A sample that is full counts at least one byte for each line up to the cap. -/
theorem cap_le_rowBytes {files : List SampleFile} (h : cap ≤ (linesIn files).length) :
    cap ≤ (ofFiles files).rowBytes := by
  calc
    cap = ((linesIn files).take cap).length := by rw [List.length_take, Nat.min_eq_left h]
    _ ≤ (ofFiles files).rowBytes := length_le_sum_textSize _

/-- Below the cap the number of lines is estimated as it is, if the files have a size. -/
theorem estimate_ofFiles_of_lt {files : List SampleFile} (h : (linesIn files).length < cap) :
    (ofFiles files).estimate =
      if totalSize files = 0 then .unknown else .rows (linesIn files).length := by
  have hrows : (ofFiles files).rows = (linesIn files).length := Nat.min_eq_right (Nat.le_of_lt h)
  have heffective : (ofFiles files).effectiveBytes = totalSize files := by
    rw [effectiveBytes, if_pos (hrows ▸ h)]
    rfl
  rw [estimate, heffective, hrows, Nat.min_eq_left (Nat.le_of_lt h)]
  split
  · rfl
  · next hpos =>
    have hbound : (linesIn files).length ≤ countBound - 1 := by
      have : cap ≤ countBound - 1 := by decide
      omega
    rw [show (ofFiles files).totalBytes = totalSize files from rfl,
      Nat.mul_div_cancel_left _ (Nat.pos_of_ne_zero hpos), Nat.min_eq_right hbound]

/-- At the cap the mean size of the lines is set against the size of the files. -/
theorem estimate_ofFiles_of_le {files : List SampleFile} (h : cap ≤ (linesIn files).length) :
    (ofFiles files).estimate =
      .rows (min (countBound - 1) (totalSize files * cap / (ofFiles files).rowBytes)) := by
  have hrows : (ofFiles files).rows = cap := Nat.min_eq_left h
  have heffective : (ofFiles files).effectiveBytes = (ofFiles files).rowBytes := by
    rw [effectiveBytes, if_neg (by rw [hrows]; exact Nat.lt_irrefl cap)]
  have hpos : (ofFiles files).rowBytes ≠ 0 := by
    have := cap_le_rowBytes h
    have : 0 < cap := by decide
    omega
  rw [estimate, heffective, if_neg hpos, hrows, Nat.min_self]
  rfl

/-- **The estimate computes its definition.** A sample is obtained exactly if all files have a size
and those that are reached below the cap can be read, and it holds the size of the files and their
first lines; a file after the cap is not looked into. The estimate is unknown without a sample, or
below the cap for files without a size. Below the cap it is the number of lines, and at the cap a
quotient of numbers that fit into 128 bits, its divisor not zero. -/
theorem estimate_of_sampled_lines {files : List SampleFile}
    (hsize : totalSize files < countBound) :
    (∀ s, take files = .ok s ↔ Obtainable cap files ∧ ofFiles files = s) ∧
      (∀ before file after content, files = before ++ file :: after →
        cap ≤ (linesIn before).length →
        take (before ++ { file with content } :: after) = take files) ∧
      (Estimate.ofFiles files = .unknown ↔
        ¬ Obtainable cap files ∨ (linesIn files).length < cap ∧ totalSize files = 0) ∧
      (Obtainable cap files → (linesIn files).length < cap → 0 < totalSize files →
        Estimate.ofFiles files = .rows (linesIn files).length) ∧
      (Obtainable cap files → cap ≤ (linesIn files).length →
        0 < (ofFiles files).rowBytes ∧ totalSize files * cap < 2 ^ 128 ∧
          Estimate.ofFiles files =
            .rows (min (countBound - 1) (totalSize files * cap / (ofFiles files).rowBytes))) := by
  have hobtained (h : Obtainable cap files) :
      Estimate.ofFiles files = (ofFiles files).estimate := by
    rw [Estimate.ofFiles, (take_eq_ok_iff hsize).2 ⟨h, rfl⟩]
  refine ⟨fun s => take_eq_ok_iff hsize, ?_, ?_, ?_, ?_⟩
  · rintro before file after content rfl hcap
    have hbefore : totalSize before ≤ totalSize (before ++ file :: after) := by
      simp [totalSize]
    exact take_congr (Nat.lt_of_le_of_lt hbefore hsize) hcap content
  · by_cases h : Obtainable cap files
    · rw [hobtained h]
      by_cases hcap : (linesIn files).length < cap
      · rw [estimate_ofFiles_of_lt hcap]
        split <;> simp_all
      · rw [estimate_ofFiles_of_le (Nat.le_of_not_lt hcap)]
        simp [h, hcap]
    · -- a sample that fails
      have hfailed : ∃ fault, take files = .error fault := by
        cases htake : take files with
        | error fault => exact ⟨fault, rfl⟩
        | ok s => exact absurd ((take_eq_ok_iff hsize).1 htake).1 h
      obtain ⟨fault, htake⟩ := hfailed
      simp [Estimate.ofFiles, htake, h]
  · intro h hcap hpos
    rw [hobtained h, estimate_ofFiles_of_lt hcap, if_neg (Nat.ne_of_gt hpos)]
  · intro h hcap
    have hrowBytes := cap_le_rowBytes hcap
    have hcap0 : 0 < cap := by decide
    refine ⟨by omega, ?_, by rw [hobtained h, estimate_ofFiles_of_le hcap]⟩
    have : countBound * cap ≤ 2 ^ 128 := by decide
    exact Nat.lt_of_lt_of_le (Nat.mul_lt_mul_of_pos_right hsize hcap0) this

/-- Three files: one without a last line feed, one that fails behind its hundredth line, and one
that cannot be opened. -/
def growingFiles : List SampleFile :=
  [⟨.ok 9, .ok (Source.ofBytes [0x61, 0x0D, 0x0A, 0x62, 0x62, 0x0A, 0x63, 0x0D])⟩,
    ⟨.ok 500, .ok ⟨[(List.replicate 97 [0x78, 0x0A]).flatten, [0x79]], .failure ⟨"gone"⟩⟩⟩,
    ⟨.ok 91, .error ⟨"denied"⟩⟩]

/-- The cap is reached in the second file, before it fails. -/
theorem estimate_of_sampled_lines_growing :
    totalSize growingFiles < countBound ∧ take growingFiles = .ok ⟨600, 100, 201⟩ ∧
      Estimate.ofFiles growingFiles = .rows 298 := by
  have hsize : totalSize growingFiles < countBound := by decide
  obtain ⟨hsample, -, -, -, hestimate⟩ := estimate_of_sampled_lines hsize
  have hobtainable : Obtainable cap growingFiles := by
    refine obtainable_cons_iff.2 ⟨rfl, fun _ => ⟨_, rfl, Or.inl rfl⟩, ?_⟩
    refine obtainable_cons_iff.2 ⟨rfl, fun _ => ⟨_, rfl, Or.inr (by decide +kernel)⟩, ?_⟩
    refine obtainable_cons_iff.2 ⟨rfl, fun h => absurd h (by decide +kernel), obtainable_nil _⟩
  have hfiles : ofFiles growingFiles = ⟨600, 100, 201⟩ := by decide +kernel
  obtain ⟨-, -, hrows⟩ := hestimate hobtainable (by decide +kernel)
  refine ⟨hsize, (hsample _).2 ⟨hobtainable, hfiles⟩, hrows.trans ?_⟩
  rw [hfiles]
  decide

end Sample

end TypedCsv
