import Mathlib.Data.List.TakeWhile
import DriveLog.Proofs.DistinctReports

/-! Hex dumps read back. The rows shown reach as far as the last byte that is not zero, and
what is folded behind them holds zeros alone. The title names the page and the number of
bytes, so the rows and the fold together give back every byte of the page. -/

namespace DriveLog

open Text

/-! ## Digits of a byte -/

namespace Text

/-- Pieces of one length, and not empty, are told apart by counting. -/
theorem join_map_inj {α : Type} {f : α → String} {size : Nat} (hsize : 0 < size)
    (hlength : ∀ a, (f a).length = size) (hf : ∀ a a', f a = f a' → a = a') {as as' : List α} :
    String.join (as.map f) = String.join (as'.map f) ↔ as = as' := by
  have hne : ∀ (a : α) (rest : String), "" ≠ f a ++ rest := by
    intro a rest h
    have hlengths := congrArg String.length h
    rw [String.length_append, hlength, String.length_empty] at hlengths
    omega
  refine ⟨fun h => ?_, fun h => h ▸ rfl⟩
  induction as generalizing as' with
  | nil =>
    cases as' with
    | nil => rfl
    | cons a' as' =>
      rw [List.map_cons, String.join_cons] at h
      exact absurd h (hne a' _)
  | cons a as ih =>
    cases as' with
    | nil =>
      rw [List.map_cons, String.join_cons] at h
      exact absurd h.symm (hne a _)
    | cons a' as' =>
      rw [List.map_cons, List.map_cons, String.join_cons, String.join_cons,
        append_inj_of_length (by rw [hlength, hlength])] at h
      rw [hf a a' h.1, ih h.2]

/-- A byte is shown in two digits. -/
theorem length_hexDigits_byte (b : UInt8) : (hexDigits 2 b.toNat).length = 2 :=
  length_padLeft_toDigits (by decide) (by decide) '0' b.toNat_lt

end Text

namespace HexDump

variable {bs bs' row row' : Bytes} {page page' : PageId}

/-! ## Rows -/

/-- The used bytes end in one that is not zero, and behind them there are zeros alone. -/
theorem exists_used (bs : Bytes) :
    ∃ used zeros, bs = used ++ zeros ∧ used.length = usedLength bs ∧
      (∀ b ∈ used.getLast?, b ≠ 0) ∧ ∀ b ∈ zeros, b = 0 := by
  refine ⟨_, _, (Bytes.dropWhile_append_zeros bs).symm, List.length_reverse, ?_, ?_⟩
  · intro b hb
    have hhead := List.head?_dropWhile_not (· = (0 : UInt8)) bs.reverse
    rw [List.getLast?_reverse, Option.mem_def] at hb
    rw [hb] at hhead
    exact of_decide_eq_false hhead
  · intro b hb
    exact List.eq_of_mem_replicate hb

theorem usedLength_le (bs : Bytes) : usedLength bs ≤ bs.length := by
  obtain ⟨used, zeros, heq, hlength, _⟩ := exists_used bs
  rw [← hlength, heq, List.length_append]
  exact Nat.le_add_right _ _

theorem eq_zero_of_mem_drop {b : UInt8} {n : Nat} (hn : usedLength bs ≤ n) (h : b ∈ bs.drop n) :
    b = 0 := by
  obtain ⟨used, zeros, heq, hlength, _, hzeros⟩ := exists_used bs
  rw [heq, List.drop_append, List.drop_eq_nil_of_le (hlength ▸ hn), List.nil_append] at h
  exact hzeros b (List.mem_of_mem_drop h)

theorem getElem?_last_ne {b : UInt8} (h : bs[usedLength bs - 1]? = some b)
    (hpos : 0 < usedLength bs) : b ≠ 0 := by
  obtain ⟨used, zeros, heq, hlength, hlast, _⟩ := exists_used bs
  have hlt : used.length - 1 < used.length := by omega
  rw [← hlength, heq, List.getElem?_append_left hlt, ← List.getLast?_eq_getElem?] at h
  exact hlast b h

/-- The number of rows that are shown. -/
def rowCount (bs : Bytes) : Nat := (usedLength bs + 15) / 16

theorem usedLength_le_rowCount : usedLength bs ≤ 16 * rowCount bs := by
  unfold rowCount
  omega

/-- The last row is reached only for the sake of a byte that is not zero. -/
theorem exists_ne_zero_of_rowCount_pos (h : 0 < rowCount bs) :
    ∃ b ∈ bs.slice (16 * (rowCount bs - 1)) 16, b ≠ 0 := by
  have hlast : 16 * (rowCount bs - 1) < usedLength bs := by
    unfold rowCount at h ⊢
    omega
  have hfit : usedLength bs ≤ 16 * rowCount bs := usedLength_le_rowCount
  obtain ⟨k, hk⟩ := Nat.exists_eq_add_of_lt hlast
  have hlt : usedLength bs - 1 < bs.length := by
    have hle := usedLength_le bs
    omega
  have hget := List.getElem?_eq_getElem hlt
  refine ⟨bs[usedLength bs - 1], List.mem_of_getElem? (i := k) ?_,
    getElem?_last_ne hget (by omega)⟩
  rw [Bytes.slice, List.getElem?_take_of_lt (by omega), List.getElem?_drop, ← hget]
  congr 1
  omega

/-- The rows are the consecutive pieces of sixteen bytes, each with its offset. -/
theorem rows_eq (bs : Bytes) :
    rows bs = (List.range (rowCount bs)).map fun i => (16 * i, bs.slice (16 * i) 16) := by
  have hrows : rows bs = ((List.range (rowCount bs)).map fun i => bs.slice (16 * i) 16).mapIdx
      fun i row => (16 * i, row) := by
    rw [rows, Bytes.pieces_eq]
    rfl
  rw [hrows, List.mapIdx_eq_zipIdx_map]
  apply List.ext_getElem (by simp)
  intro i hi hi'
  simp

/-! ## Lines -/

theorem rowLine_inj {offset : Nat} : rowLine offset row = rowLine offset row' ↔ row = row' := by
  have hlength : ∀ b : UInt8, (" " ++ hexDigits 2 b.toNat).length = 3 := by
    intro b
    rw [String.length_append, length_hexDigits_byte]
    rfl
  have hbyte : ∀ b b' : UInt8, " " ++ hexDigits 2 b.toNat = " " ++ hexDigits 2 b'.toNat →
      b = b' := by
    intro b b' h
    rwa [String.append_right_inj, hexDigits_inj, UInt8.toNat_inj] at h
  unfold rowLine
  rw [String.append_right_inj, join_map_inj (by decide) hlength hbyte]

theorem rowLine_ne_star (offset : Nat) (row : Bytes) : rowLine offset row ≠ "*" := by
  intro h
  have hhead := congrArg (fun s => s.toList.head?) h
  simp [rowLine, hexWord] at hhead

/-- The first line, with the page and the number of bytes. -/
def header (page : PageId) (count : Nat) : String :=
  page.title ++ " (page " ++ hexWord 2 page.toNat ++ "), " ++ decimal count ++ " bytes"

/-- No title holds the bracket that stands behind it. -/
theorem bracket_not_mem_title (page : PageId) : '(' ∉ (page.title ++ " ").toList := by
  unfold PageId.title PageId.name?
  cases hname : PageId.names.lookup page with
  | none => decide
  | some name =>
    have hall : ∀ entry ∈ PageId.names, '(' ∉ (entry.2 ++ " ").toList := by decide
    obtain ⟨before, after, heq, _⟩ := List.lookup_eq_some_iff.mp hname
    exact hall (page, name) (by simp [heq])

theorem header_inj {count count' : Nat} :
    header page count = header page' count' ↔ page = page' ∧ count = count' := by
  refine ⟨fun h => ?_, fun h => h.1 ▸ h.2 ▸ rfl⟩
  have hcut : ∀ (page : PageId) (count : Nat), (header page count).toList =
      (page.title ++ " ").toList ++ ("(" ++ ("page " ++ (hexWord 2 page.toNat ++
        ("), " ++ (decimal count ++ " bytes"))))).toList := by
    intro page count
    have hspace : " (page " = " " ++ ("(" ++ "page ") := rfl
    rw [← String.toList_append]
    simp only [header, hspace, String.append_assoc]
  have hbracket : ∀ (s : String), ∀ c ∈ ("(" ++ s).toList.head?, (c == '(') = true := by
    intro s c hc
    rw [String.toList_append] at hc
    cases hc
    rfl
  have hlength : ∀ b : UInt8, (hexWord 2 b.toNat).length = 4 := by
    intro b
    rw [hexWord, String.length_append, length_hexDigits_byte]
    rfl
  have htitle : ∀ page : PageId, ∀ c ∈ (page.title ++ " ").toList, (c == '(') = false := by
    intro page c hc
    apply beq_false_of_ne
    rintro rfl
    exact bracket_not_mem_title page hc
  have hlists := congrArg String.toList h
  rw [hcut, hcut] at hlists
  obtain ⟨_, hback⟩ := append_inj_of_mark (htitle page) (htitle page') (hbracket _) (hbracket _)
    hlists
  rwa [String.toList_inj, String.append_right_inj, String.append_right_inj,
    append_inj_of_length ((hlength page).trans (hlength page').symm), hexWord_inj,
    UInt8.toNat_inj, String.append_right_inj, String.append_left_inj, decimal_inj] at hback

/-! ## The report -/

/-- The lines of the first rows. -/
def rowLines (shown : Nat) (bs : Bytes) : Report :=
  (List.range shown).map fun i => rowLine (16 * i) (bs.slice (16 * i) 16)

/-- The line that stands for what is not shown. -/
def foldLines (shown : Nat) (bs : Bytes) : Report :=
  if 16 * shown < bs.length then ["*"] else []

theorem ne_star_of_mem_rowLines {shown : Nat} {line : String} (h : line ∈ rowLines shown bs) :
    line ≠ "*" := by
  obtain ⟨i, _, rfl⟩ := List.mem_map.mp h
  exact rowLine_ne_star _ _

theorem star_ne_header (page : PageId) (count : Nat) : "*" ≠ header page count := by
  intro h
  have hlength := congrArg String.length h
  have hlong : 6 ≤ (header page count).length := by
    rw [header, String.length_append]
    exact Nat.le_add_left 6 _
  rw [← hlength] at hlong
  exact absurd hlong (by decide)

theorem report_eq (page : PageId) (bs : Bytes) :
    report page.title page bs =
      header page bs.length :: rowLines (rowCount bs) bs ++ foldLines (rowCount bs) bs := by
  rw [report, rows_eq, List.map_map, List.length_map, List.length_range]
  rfl

/-- A short last row that holds zeros alone is folded as well. -/
example : report (PageId.title 0x7f) 0x7f (0xab :: List.replicate 16 0) =
    ["Unknown Log Page (page 0x7f), 17 bytes",
      "0x0000: ab 00 00 00 00 00 00 00 00 00 00 00 00 00 00 00", "*"] := by
  decide

theorem mem_report_star : "*" ∈ report page.title page bs ↔ 16 * rowCount bs < bs.length := by
  have hrows : "*" ∉ rowLines (rowCount bs) bs := fun h => ne_star_of_mem_rowLines h rfl
  rw [report_eq, List.mem_append, List.mem_cons,
    or_iff_right (not_or.mpr ⟨star_ne_header page bs.length, hrows⟩), foldLines]
  split
  · rename_i hlt
    exact iff_of_true (List.mem_singleton_self _) hlt
  · rename_i hge
    exact iff_of_false List.not_mem_nil hge

/-- The rows and the zeros behind them are the whole page. -/
theorem eq_of_rows_eq (hlength : bs.length = bs'.length) (hcount : rowCount bs = rowCount bs')
    (hrows : ∀ i < rowCount bs, bs.slice (16 * i) 16 = bs'.slice (16 * i) 16) : bs = bs' := by
  have hshown : bs.take (16 * rowCount bs) = bs'.take (16 * rowCount bs) := by
    rw [← Bytes.flatten_pieces, ← Bytes.flatten_pieces, Bytes.pieces_eq, Bytes.pieces_eq]
    congr 1
    exact List.map_congr_left fun i hi => hrows i (List.mem_range.mp hi)
  have hzeros : ∀ {bs : Bytes} {n : Nat}, n = rowCount bs →
      bs.drop (16 * n) = List.replicate (bs.length - 16 * n) 0 := by
    rintro bs n rfl
    rw [← List.length_drop, List.eq_replicate_iff]
    exact ⟨rfl, fun b hb => eq_zero_of_mem_drop usedLength_le_rowCount hb⟩
  calc bs = bs.take (16 * rowCount bs) ++ bs.drop (16 * rowCount bs) :=
        (List.take_append_drop _ _).symm
    _ = bs'.take (16 * rowCount bs) ++ bs'.drop (16 * rowCount bs) := by
        rw [hshown, hzeros rfl, hzeros hcount, hlength]
    _ = bs' := List.take_append_drop _ _

theorem report_inj :
    report page.title page bs = report page'.title page' bs' ↔ page = page' ∧ bs = bs' := by
  refine ⟨fun h => ?_, fun h => h.1 ▸ h.2 ▸ rfl⟩
  have hrows : ∀ (bs : Bytes), ∀ line ∈ rowLines (rowCount bs) bs, (line == "*") = false :=
    fun bs line hline => beq_false_of_ne (ne_star_of_mem_rowLines hline)
  have hfold : ∀ (bs : Bytes), ∀ line ∈ (foldLines (rowCount bs) bs).head?,
      (line == "*") = true := by
    intro bs line hline
    rw [foldLines] at hline
    split at hline <;> cases hline
    rfl
  rw [report_eq, report_eq, List.cons_append, List.cons_append] at h
  obtain ⟨hheader, htail⟩ := List.cons.inj h
  obtain ⟨hpage, hlength⟩ := header_inj.mp hheader
  obtain ⟨hlines, _⟩ :=
    append_inj_of_mark (hrows bs) (hrows bs') (hfold bs) (hfold bs') htail
  have hcount : rowCount bs = rowCount bs' := by
    simpa only [rowLines, List.length_map, List.length_range] using congrArg List.length hlines
  rw [← hcount, rowLines, rowLines, List.map_inj_left] at hlines
  refine ⟨hpage, eq_of_rows_eq hlength hcount fun i hi => ?_⟩
  exact rowLine_inj.mp (hlines i (List.mem_range.mpr hi))

/-- How a dump shows a page. A title with the page and the number of bytes stands before so many
rows. Row `i` is labelled `16 * i`, in at least four digits that are read as this number, and
shows the sixteen bytes from there on, each in two digits; the last row may be short and has a
byte that is not zero. A star stands in place of the zeros that are left. -/
structure Shows (page : PageId) (bs : Bytes) (shown : Nat) : Prop where
  report_eq : report page.title page bs =
    (page.title ++ " (page " ++ hexWord 2 page.toNat ++ "), " ++ decimal bs.length ++ " bytes") ::
      ((List.range shown).map fun i => hexWord 4 (16 * i) ++ ":" ++
        String.join (((bs.drop (16 * i)).take 16).map fun b => " " ++ hexDigits 2 b.toNat)) ++
      if 16 * shown < bs.length then ["*"] else []
  label : ∀ i < shown, ∃ digits, hexWord 4 (16 * i) = "0x" ++ digits ∧
    numeralValue 16 digits.toList = 16 * i
  row_ne_nil : ∀ i < shown, 16 * i < bs.length
  exists_ne_zero : 0 < shown → ∃ b ∈ (bs.drop (16 * (shown - 1))).take 16, b ≠ 0
  mem_star : "*" ∈ report page.title page bs ↔ 16 * shown < bs.length
  eq_zero : ∀ b ∈ bs.drop (16 * shown), b = 0

theorem shows_rowCount (page : PageId) (bs : Bytes) : Shows page bs (rowCount bs) where
  report_eq := report_eq page bs
  label i _ := ⟨hexDigits 4 (16 * i), rfl, numeralValue_hexDigits 4 (16 * i)⟩
  row_ne_nil i hi := by
    have hused := usedLength_le bs
    unfold rowCount at hi
    omega
  exists_ne_zero := exists_ne_zero_of_rowCount_pos
  mem_star := mem_report_star
  eq_zero _ hb := eq_zero_of_mem_drop usedLength_le_rowCount hb

/-- A dump tells the page and every byte of it, and what it leaves out are zeros alone. -/
theorem report_lossless (page : PageId) (bs : Bytes) :
    (∃ shown, Shows page bs shown) ∧ ∀ (page' : PageId) (bs' : Bytes),
      (report page.title page bs).text = (report page'.title page' bs').text ↔
        page = page' ∧ bs = bs' := by
  refine ⟨⟨rowCount bs, shows_rowCount page bs⟩, fun page' bs' => ?_⟩
  rw [Report.text_inj (isPrintable_report page.printable_title page bs)
    (isPrintable_report page'.printable_title page' bs'), report_inj]

end HexDump

end DriveLog
