import TypedCsv.Proofs.Sampling

/-! # How far an estimate may fall short

Every line of a sample counts one byte for its end, also a line that has none because its file ends
there. So the sizes of the sampled lines may come to more than the files hold, and the estimate to
less than the number of lines that have been seen. It does so exactly if more of these lines are
open than carriage returns are left out of account and bytes are left behind the sample, and it
never falls below half (`Sample.seen_le_estimate_iff`).

* `Source.wholeLines`: the lines of some bytes with the bytes that end them.
* `Sample.length_add_openLines`: the bytes of some lines and their sizes in a sample. -/

namespace TypedCsv

namespace Source

/-! ## Lines with their ends -/

/-- The lines of some bytes as they stand, each with its line feed; the last one may have none. -/
def wholeLines : List UInt8 → List (List UInt8)
  | [] => []
  | byte :: bytes =>
    if byte = lineFeed then [byte] :: wholeLines bytes
    else
      match wholeLines bytes with
      | [] => [[byte]]
      | line :: lines => (byte :: line) :: lines

/-- A line without its line feed. -/
def body (line : List UInt8) : List UInt8 :=
  if line.getLast? = some lineFeed then line.dropLast else line

/-- Whether a line has no line feed, because its file ends there. -/
def isOpen (line : List UInt8) : Bool :=
  line.getLast? != some lineFeed

/-- Whether there is a carriage return at the end of the text of a line. -/
def hasReturn (line : List UInt8) : Bool :=
  (body line).getLast? == some carriageReturn

/-- Nothing is lost between two lines. -/
theorem flatten_wholeLines (bytes : List UInt8) : (wholeLines bytes).flatten = bytes := by
  fun_induction wholeLines bytes with
  | case1 => rfl
  | case2 bytes ih => rw [List.flatten_cons, ih, List.singleton_append]
  | case3 byte bytes hbyte hlines ih => simpa [hlines] using ih
  | case4 byte bytes hbyte line lines hlines ih => simpa [hlines] using ih

/-- Each line of some bytes has at least one byte. -/
theorem ne_nil_of_mem_wholeLines {line bytes : List UInt8} (h : line ∈ wholeLines bytes) :
    line ≠ [] := by
  fun_induction wholeLines bytes with
  | case1 => cases h
  | case2 bytes ih =>
    rcases List.mem_cons.1 h with rfl | h
    · exact List.cons_ne_nil _ _
    · exact ih h
  | case3 byte bytes hbyte hlines ih =>
    rw [List.mem_singleton.1 h]
    exact List.cons_ne_nil _ _
  | case4 byte bytes hbyte line lines hlines ih =>
    rcases List.mem_cons.1 h with rfl | h
    · exact List.cons_ne_nil _ _
    · exact ih (hlines ▸ List.mem_cons_of_mem _ h)

/-- A byte in front of a line is in front of its text. -/
theorem body_cons {byte : UInt8} {line : List UInt8} (h : line ≠ []) :
    body (byte :: line) = byte :: body line := by
  obtain ⟨last, rest, rfl⟩ := List.exists_cons_of_ne_nil h
  rw [body, body, List.getLast?_cons_cons]
  split <;> rfl

/-- The lines of some bytes are those with their ends, without their line feeds. -/
theorem linesOf_eq_map (bytes : List UInt8) : linesOf bytes = (wholeLines bytes).map body := by
  fun_induction wholeLines bytes with
  | case1 => rfl
  | case2 bytes ih =>
    rw [linesOf, if_pos rfl, ih]
    rfl
  | case3 byte bytes hbyte hlines ih =>
    have hbody : body [byte] = [byte] := if_neg (by simpa using hbyte)
    rw [hlines] at ih
    rw [linesOf, if_neg hbyte, ih, List.map_singleton, hbody]
    rfl
  | case4 byte bytes hbyte line lines hlines ih =>
    have hne : line ≠ [] := ne_nil_of_mem_wholeLines (hlines ▸ List.mem_cons_self)
    rw [hlines] at ih
    rw [linesOf, if_neg hbyte, ih, List.map_cons, List.map_cons, body_cons hne]

end Source

open Source (wholeLines body isOpen hasReturn)

namespace Sample

/-! ## The size of a line in a sample -/

/-- The bytes of some lines. -/
def byteCount (lines : List (List UInt8)) : Nat :=
  (lines.map List.length).sum

/-- The number of lines without a line feed. -/
def openLines (lines : List (List UInt8)) : Nat :=
  lines.countP isOpen

/-- The number of lines with a carriage return that does not belong to their text. -/
def returns (lines : List (List UInt8)) : Nat :=
  lines.countP hasReturn

/-- What some lines count in a sample. -/
def countedBytes (lines : List (List UInt8)) : Nat :=
  (lines.map fun line => textSize (body line) + 1).sum

/-- A line counts all its bytes but its carriage return, and a line feed also if it has none. -/
theorem length_add_isOpen {line : List UInt8} (h : line ≠ []) :
    line.length + (if isOpen line then 1 else 0) =
      textSize (body line) + 1 + if hasReturn line then 1 else 0 := by
  have hbody : (body line).length + 1 = line.length + if isOpen line then 1 else 0 := by
    rw [body, isOpen]
    have hpos : 0 < line.length := List.length_pos_iff.2 h
    by_cases hlast : line.getLast? = some Source.lineFeed
    · simp only [hlast, if_true, bne_self_eq_false, Bool.false_eq_true, if_false,
        List.length_dropLast]
      omega
    · simp [hlast]
  rw [← hbody, textSize, hasReturn]
  by_cases hreturn : (body line).getLast? = some Source.carriageReturn
  · have hpos : 0 < (body line).length := by
      rw [List.length_pos_iff]
      intro hnil
      rw [hnil] at hreturn
      cases hreturn
    simp only [hreturn, if_true, beq_self_eq_true]
    omega
  · simp [hreturn]

/-- **The bytes of some lines and what they count in a sample.** -/
theorem byteCount_add_openLines {lines : List (List UInt8)} (h : ∀ line ∈ lines, line ≠ []) :
    byteCount lines + openLines lines = countedBytes lines + returns lines := by
  induction lines with
  | nil => rfl
  | cons line lines ih =>
    rw [List.forall_mem_cons] at h
    have hline := length_add_isOpen h.1
    have hlines := ih h.2
    simp only [byteCount, openLines, countedBytes, returns, List.map_cons, List.sum_cons,
      List.countP_cons] at hlines ⊢
    omega

/-- An open line is not empty, and so it has a byte for the one that it counts too much. -/
theorem openLines_le_byteCount {lines : List (List UInt8)} (h : ∀ line ∈ lines, line ≠ []) :
    openLines lines ≤ byteCount lines := by
  induction lines with
  | nil => exact Nat.le_refl 0
  | cons line lines ih =>
    rw [List.forall_mem_cons] at h
    have hpos : 0 < line.length := List.length_pos_iff.2 h.1
    have hlines := ih h.2
    simp only [openLines, byteCount, List.countP_cons, List.map_cons, List.sum_cons] at hlines ⊢
    split <;> omega

end Sample

/-! ## Readable files -/

namespace SampleFile

/-- A file that opens, can be read up to its end, and has the size of its bytes. -/
def Readable (file : SampleFile) : Prop :=
  ∃ source, file.content = .ok source ∧ source.ending = .complete ∧ file.size = .ok source.size

/-- The lines of a file with their ends; a file that cannot be opened has none. -/
def wholeLines (file : SampleFile) : List (List UInt8) :=
  match file.content with
  | .ok source => Source.wholeLines source.bytes
  | .error _ => []

/-- The lines that are sampled are those of the file without their line feeds. -/
theorem lines_eq_map (file : SampleFile) : file.lines = file.wholeLines.map body := by
  rw [lines, wholeLines]
  cases file.content with
  | ok source => exact Source.linesOf_eq_map source.bytes
  | error fault => rfl

/-- Each line of a file has at least one byte. -/
theorem ne_nil_of_mem_wholeLines {file : SampleFile} {line : List UInt8}
    (h : line ∈ file.wholeLines) : line ≠ [] := by
  rw [wholeLines] at h
  split at h
  · exact Source.ne_nil_of_mem_wholeLines h
  · cases h

/-- A readable file is as large as its lines. -/
theorem Readable.byteCount_wholeLines {file : SampleFile} (h : file.Readable) :
    Sample.byteCount file.wholeLines = file.knownSize := by
  obtain ⟨source, hcontent, -, hsize⟩ := h
  rw [wholeLines, hcontent, knownSize, hsize, Source.size, Sample.byteCount]
  conv_rhs => rw [← Source.flatten_wholeLines source.bytes, List.length_flatten]

end SampleFile

namespace Sample

variable {files : List SampleFile}

/-- The lines of some files with their ends, file by file. -/
def wholeLinesIn (files : List SampleFile) : List (List UInt8) :=
  files.flatMap SampleFile.wholeLines

/-- The lines that are sampled, with their ends. -/
def sampledLines (files : List SampleFile) : List (List UInt8) :=
  (wholeLinesIn files).take cap

/-- The number of bytes behind the lines that are sampled. -/
def unsampledBytes (files : List SampleFile) : Nat :=
  byteCount ((wholeLinesIn files).drop cap)

/-- The lines sampled from some files are those of the files without their line feeds. -/
theorem linesIn_eq_map (files : List SampleFile) :
    linesIn files = (wholeLinesIn files).map body := by
  rw [linesIn, wholeLinesIn, List.map_flatMap]
  exact List.flatMap_congr fun file _ => file.lines_eq_map

/-- Each sampled line has at least one byte. -/
theorem ne_nil_of_mem_sampledLines (files : List SampleFile) :
    ∀ line ∈ sampledLines files, line ≠ [] := by
  intro line h
  obtain ⟨file, -, hline⟩ := List.mem_flatMap.1 (List.mem_of_mem_take h)
  exact SampleFile.ne_nil_of_mem_wholeLines hline

/-- The bytes of two runs of lines add up. -/
theorem byteCount_append (xs ys : List (List UInt8)) :
    byteCount (xs ++ ys) = byteCount xs + byteCount ys := by
  simp [byteCount]

/-- Readable files are as large as their lines. -/
theorem byteCount_wholeLinesIn (h : ∀ file ∈ files, file.Readable) :
    byteCount (wholeLinesIn files) = totalSize files := by
  induction files with
  | nil => rfl
  | cons file files ih =>
    rw [List.forall_mem_cons] at h
    have hfile := h.1.byteCount_wholeLines
    have hfiles := ih h.2
    rw [wholeLinesIn] at hfiles ⊢
    rw [List.flatMap_cons, byteCount_append, hfile, hfiles, totalSize_cons]

/-- The bytes of readable files are those of the lines that are sampled, and those behind them. -/
theorem totalSize_eq (h : ∀ file ∈ files, file.Readable) :
    totalSize files = byteCount (sampledLines files) + unsampledBytes files := by
  rw [sampledLines, unsampledBytes, ← byteCount_append, List.take_append_drop,
    byteCount_wholeLinesIn h]

/-- A sample counts exactly its sampled lines. -/
theorem rowBytes_ofFiles (files : List SampleFile) :
    (ofFiles files).rowBytes = countedBytes (sampledLines files) := by
  rw [ofFiles, linesIn_eq_map, ← List.map_take, List.map_map]
  rfl

/-- Readable files have a sample. -/
theorem obtainable_of_readable (h : ∀ file ∈ files, file.Readable) : Obtainable cap files := by
  refine ⟨fun file hfile => ?_, fun before file after hfiles _ => ?_⟩
  · obtain ⟨source, -, -, hsize⟩ := h file hfile
    rw [hsize]
    rfl
  · obtain ⟨source, hcontent, hending, -⟩ := h file (by simp [hfiles])
    exact ⟨source, hcontent, Or.inl hending⟩

/-- The estimate of readable files is the one of their sample. -/
theorem estimate_of_readable (h : ∀ file ∈ files, file.Readable)
    (hsize : totalSize files < countBound) :
    Estimate.ofFiles files = (ofFiles files).estimate := by
  rw [Estimate.ofFiles, (take_eq_ok_iff hsize).2 ⟨obtainable_of_readable h, rfl⟩]

/-! ## The estimate and the lines that have been seen -/

/-- A quotient reaches a factor of its dividend exactly if the other factor is at least the
divisor. -/
theorem le_mul_div_iff {total rowBytes : Nat} (hpos : 0 < rowBytes) :
    cap ≤ total * cap / rowBytes ↔ rowBytes ≤ total := by
  rw [Nat.le_div_iff_mul_le hpos, Nat.mul_comm cap]
  exact Nat.mul_le_mul_right_iff (by decide)

/-- **An estimate reaches the number of sampled lines** exactly below the cap, or if the open lines
of the sample are made up for by carriage returns and by bytes behind it. It always reaches half. -/
theorem seen_le_estimate_iff (hreadable : ∀ file ∈ files, file.Readable)
    (hsize : totalSize files < countBound) (hpos : 0 < totalSize files) :
    ∃ n, Estimate.ofFiles files = .rows n ∧
      (min cap (linesIn files).length ≤ n ↔ (linesIn files).length < cap ∨
        openLines (sampledLines files) ≤ returns (sampledLines files) + unsampledBytes files) ∧
      min cap (linesIn files).length ≤ 2 * n := by
  rw [estimate_of_readable hreadable hsize]
  by_cases hcap : (linesIn files).length < cap
  · rw [estimate_ofFiles_of_lt hcap, if_neg (Nat.ne_of_gt hpos)]
    exact ⟨_, rfl, iff_of_true (Nat.min_le_right _ _) (Or.inl hcap), by omega⟩
  · -- at the cap the sizes of the lines are set against those of the files
    have hcap := Nat.le_of_not_lt hcap
    have hrowBytes := cap_le_rowBytes hcap
    have htotal := totalSize_eq hreadable
    have hbytes := byteCount_add_openLines (ne_nil_of_mem_sampledLines files)
    have hopen := openLines_le_byteCount (ne_nil_of_mem_sampledLines files)
    rw [rowBytes_ofFiles] at hrowBytes
    rw [estimate_ofFiles_of_le hcap, Nat.min_eq_left hcap, rowBytes_ofFiles]
    generalize countedBytes (sampledLines files) = rowBytes at hrowBytes hbytes ⊢
    have hlarge : cap ≤ countBound - 1 := by decide
    have hdivisor : 0 < rowBytes := Nat.lt_of_lt_of_le (by decide) hrowBytes
    refine ⟨_, rfl, ?_, ?_⟩
    · rw [Nat.le_min, and_iff_right hlarge, le_mul_div_iff hdivisor,
        or_iff_right (Nat.not_lt_of_le hcap)]
      omega
    · -- the sizes come to at most twice the bytes
      have hhalf : cap / 2 ≤ totalSize files * cap / rowBytes := by
        rw [Nat.le_div_iff_mul_le hdivisor, cap]
        omega
      have hcap2 : cap = 2 * (cap / 2) := by decide
      omega

/-- Ninety-nine lines and an open one behind them, then a file of one line more. -/
def openedFiles : List SampleFile :=
  [⟨.ok 198, .ok (Source.ofBytes (List.replicate 99 [0x78, 0x0A]).flatten)⟩,
    ⟨.ok 1, .ok (Source.ofBytes [0x79])⟩, ⟨.ok 2, .ok (Source.ofBytes [0x7A, 0x0A])⟩]

/-- The file behind the sample makes up for the open line. -/
theorem seen_le_estimate_iff_opened :
    (∀ file ∈ openedFiles, file.Readable) ∧
      ∃ n, Estimate.ofFiles openedFiles = .rows n ∧ 100 ≤ n := by
  have hreadable : ∀ file ∈ openedFiles, file.Readable := by
    simp only [openedFiles, List.forall_mem_cons]
    exact ⟨⟨_, rfl, rfl, rfl⟩, ⟨_, rfl, rfl, rfl⟩, ⟨_, rfl, rfl, rfl⟩, by simp⟩
  obtain ⟨n, hn, hseen, -⟩ := seen_le_estimate_iff hreadable (by decide) (by decide)
  refine ⟨hreadable, n, hn, ?_⟩
  have hlines : min cap (linesIn openedFiles).length = 100 := by decide +kernel
  rw [← hlines]
  exact hseen.2 (Or.inr (by decide +kernel))

/-- A file of a hundred lines, the last of which is open. -/
def hundredLines : SampleFile :=
  ⟨.ok 199, .ok (Source.ofBytes ((List.replicate 99 [0x78, 0x0A]).flatten ++ [0x78]))⟩

/-- **An estimate falls short of the lines that have been seen**: of a hundred it finds
ninety-nine. -/
theorem hundred_lines_underestimated :
    (∀ file ∈ [hundredLines], file.Readable) ∧ totalSize [hundredLines] < countBound ∧
      0 < totalSize [hundredLines] ∧ Estimate.ofFiles [hundredLines] = .rows 99 ∧
      ¬ ∃ n, Estimate.ofFiles [hundredLines] = .rows n ∧
        min cap (linesIn [hundredLines]).length ≤ n := by
  have hreadable : ∀ file ∈ [hundredLines], file.Readable := by
    simpa using ⟨_, rfl, rfl, rfl⟩
  have hlines : (linesIn [hundredLines]).length = 100 := by decide +kernel
  have hrowBytes : (ofFiles [hundredLines]).rowBytes = 200 := by decide +kernel
  have hestimate : Estimate.ofFiles [hundredLines] = .rows 99 := by
    rw [estimate_of_readable hreadable (by decide),
      estimate_ofFiles_of_le (by rw [hlines]; decide), hrowBytes]
    decide
  refine ⟨hreadable, by decide, by decide, hestimate, ?_⟩
  rintro ⟨n, hn, hseen⟩
  rw [hestimate] at hn
  cases hn
  rw [hlines] at hseen
  exact absurd hseen (by decide)

end Sample

end TypedCsv
