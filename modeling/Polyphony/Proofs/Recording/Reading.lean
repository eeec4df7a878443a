import Polyphony.Proofs.Binary32.Text
import Polyphony.Proofs.Recording.Growth
import Polyphony.Recording.Csv

/-!
# Reading the text of a recording back

The text of a recording is cut at its line feeds into lines, and each line at its
commas into fields.  No field holds a comma or a line feed, so the cuts give back the
fields that were written: the names of the columns, then a line for each frame.

**Columns.**  Behind the first field come eight columns for each listed voice, in the
order in which the voices are listed, one for each stream.  A voice may be listed
more than once.

**Results.**
* `rowsOf_pageText`: lines of fields without separators are given back by cutting.
* `getD_columnTexts`: a column has the plain text of each of its samples.
* `Holds.exists_csv`: the text of a recording, as lines of fields.
* `csv_tabulates`: the text of a recording of several blocks, read back.
-/

namespace Polyphony
namespace Recording

section Layout

/-- The characters of a line, its line feed not among them. -/
def lineText (fields : List String) : List Char :=
  [','].intercalate (fields.map String.toList)

/-- The characters of several lines, each ended by a line feed. -/
def pageText (rows : List (List String)) : List Char :=
  rows.flatMap fun fields => lineText fields ++ ['\n']

/-- A text that holds neither a comma nor a line feed. -/
def IsField (text : String) : Prop :=
  ',' ∉ text.toList ∧ '\n' ∉ text.toList

/-- The lines of a text, each cut at its commas; what follows the last line feed is no line. -/
def rowsOf (text : String) : List (List String) :=
  (text.toList.splitOn '\n').dropLast.map fun line => (line.splitOn ',').map String.ofList

/-- A field of a text by its line and its place in the line, both counted from zero. -/
def cell? (text : String) (line place : Nat) : Option String :=
  (rowsOf text)[line]?.bind fun row => row[place]?

theorem lineText_cons (first : String) (fields : List String) :
    lineText (first :: fields) = first.toList ++ fields.flatMap fun field => ',' :: field.toList := by
  induction fields generalizing first with
  | nil => simp [lineText]
  | cons field fields ih =>
      have hrest := ih field
      rw [lineText, List.map_cons] at hrest ⊢
      rw [List.map_cons, List.intercalate_cons_cons, hrest, List.flatMap_cons]
      simp

theorem newline_not_mem_lineText
    {fields : List String}
    (h : ∀ field ∈ fields, IsField field) :
    '\n' ∉ lineText fields := by
  cases fields with
  | nil => exact List.not_mem_nil
  | cons first fields =>
      rw [lineText_cons, List.mem_append, List.mem_flatMap]
      rintro (hfirst | ⟨field, hfield, hmem⟩)
      · exact (h first List.mem_cons_self).2 hfirst
      · rcases List.mem_cons.1 hmem with heq | hmem
        · exact absurd heq (by decide)
        · exact (h field (List.mem_cons_of_mem _ hfield)).2 hmem

/-- Cut at its line feeds, a page gives its lines, and nothing behind the last one. -/
theorem splitOn_pageText
    {rows : List (List String)}
    (h : ∀ row ∈ rows, ∀ field ∈ row, IsField field) :
    (pageText rows).splitOn '\n' = rows.map lineText ++ [[]] := by
  induction rows with
  | nil => rfl
  | cons row rows ih =>
      have hline := newline_not_mem_lineText (h row List.mem_cons_self)
      rw [pageText, List.flatMap_cons, List.append_assoc, List.singleton_append,
        List.splitOn_append_cons_self_of_not_mem hline]
      exact congrArg (lineText row :: ·) (ih fun r hr => h r (List.mem_cons_of_mem _ hr))

/-- Cut at its commas, a line gives its fields. -/
theorem splitOn_lineText
    {fields : List String}
    (hne : fields ≠ [])
    (h : ∀ field ∈ fields, IsField field) :
    ((lineText fields).splitOn ',').map String.ofList = fields := by
  have hcommas : ∀ field ∈ fields.map String.toList, ',' ∉ field := by
    intro field hfield
    obtain ⟨text, htext, rfl⟩ := List.mem_map.1 hfield
    exact (h text htext).1
  rw [lineText, List.splitOn_intercalate ',' hcommas (by simpa using hne), List.map_map]
  simp [Function.comp_def]

/-- Lines of fields that hold no separators are given back by cutting. -/
theorem rowsOf_pageText
    {text : String} {rows : List (List String)}
    (htext : text.toList = pageText rows)
    (hrows : ∀ row ∈ rows, row ≠ [] ∧ ∀ field ∈ row, IsField field) :
    rowsOf text = rows := by
  rw [rowsOf, htext, splitOn_pageText fun row hrow => (hrows row hrow).2,
    List.dropLast_concat, List.map_map]
  refine (List.map_congr_left fun row hrow => ?_).trans (List.map_id rows)
  exact splitOn_lineText (hrows row hrow).1 (hrows row hrow).2

end Layout

section Fields

theorem isField_of_numerals
    {text : String}
    (h : ∀ c ∈ text.toList, Binary32.isNumeral c = true) :
    IsField text := by
  constructor
  · intro hcomma
    exact absurd (h _ hcomma) (by decide)
  · intro hfeed
    exact absurd (h _ hfeed) (by decide)

theorem isField_toString (n : Nat) : IsField (toString n) :=
  isField_of_numerals fun _ hc => Binary32.isNumeral_of_isDigit (Binary32.isDigit_of_mem_toString hc)

theorem isField_plainText (x : Float32) : IsField (Binary32.plainText x) :=
  isField_of_numerals fun _ => Binary32.isNumeral_of_mem_plainText

theorem IsField.append
    {s t : String}
    (hs : IsField s) (ht : IsField t) :
    IsField (s ++ t) := by
  rw [IsField, String.toList_append, List.mem_append, List.mem_append]
  exact ⟨not_or.2 ⟨hs.1, ht.1⟩, not_or.2 ⟨hs.2, ht.2⟩⟩

theorem isField_columnName (voice : Nat) (s : Stream) :
    IsField (columnName voice s) := by
  have hletter : IsField "v" := by
    constructor <;> decide
  have hpoint : IsField "." := by
    constructor <;> decide
  have hname : IsField s.name := by
    cases s <;> constructor <;> decide
  exact ((hletter.append (isField_toString voice)).append hpoint).append hname

end Fields

section Columns

variable {r : Recording} {voices : Nat} {blocks : List (Buffer × Nat)} {listed : List Nat}

/-- The text kept of the last number is the plain text of every number with its bits. -/
theorem textAfter_eq
    {last : Option LastText}
    (h : ∀ l ∈ last, ∃ y : Float32, l.bits = y.toBits ∧ l.text = Binary32.plainText y)
    (x : Float32) :
    textAfter last x = Binary32.plainText x := by
  cases last with
  | none => rfl
  | some l =>
      obtain ⟨y, hbits, htext⟩ := h l rfl
      rw [textAfter]
      split
      case isTrue hsame =>
        rw [htext]
        exact Binary32.plainText_eq_of_toBits_eq (hbits.symm.trans hsame)
      case isFalse => rfl

theorem toList_columnTextsAfter (xs : List Float32) :
    ∀ (last : Option LastText) (done : Array String),
      (∀ l ∈ last, ∃ y : Float32, l.bits = y.toBits ∧ l.text = Binary32.plainText y) →
      (columnTextsAfter xs last done).toList = done.toList ++ xs.map Binary32.plainText := by
  induction xs with
  | nil =>
      intro last done _
      simp [columnTextsAfter]
  | cons x xs ih =>
      intro last done hlast
      -- whatever was kept before, the next number finds its predecessor's text
      have hnext : ∀ l ∈ some { bits := x.toBits, text := textAfter last x : LastText },
          ∃ y : Float32, l.bits = y.toBits ∧ l.text = Binary32.plainText y := by
        intro l hl
        obtain rfl := Option.some.inj hl
        exact ⟨x, rfl, textAfter_eq hlast x⟩
      rw [columnTextsAfter, ih _ _ hnext, Array.toList_push, textAfter_eq hlast, List.append_assoc]
      rfl

/-- A column has the plain text of each of its samples. -/
theorem getD_columnTexts (s : Signal) (f : Nat) :
    (columnTexts s).getD f "" = (s.toList[f]?.map Binary32.plainText).getD "" := by
  have htexts : (columnTexts s).toList = s.toList.map Binary32.plainText :=
    (toList_columnTextsAfter s.toList none _ nofun).trans (by simp)
  rw [Array.getD_eq_getD_getElem?, ← Array.getElem?_toList, htexts, List.getElem?_map]

theorem isField_getD_columnTexts (s : Signal) (f : Nat) :
    IsField ((columnTexts s).getD f "") := by
  rw [getD_columnTexts]
  cases s.toList[f]? with
  | none => constructor <;> decide
  | some x => exact isField_plainText x

theorem length_columns (listed : List Nat) :
    (columns listed).length = 8 * listed.length := by
  induction listed with
  | nil => rfl
  | cons voice listed ih =>
      rw [columns, List.flatMap_cons, List.length_append, List.length_map, ← columns, ih,
        List.length_cons, Nat.mul_succ, Nat.add_comm]
      rfl

/-- The eight columns of each listed voice follow those of the voices listed before it. -/
theorem getElem?_columns
    {j i voice : Nat} {s : Stream}
    (hvoice : listed[j]? = some voice)
    (hs : Stream.all[i]? = some s) :
    (columns listed)[8 * j + i]? = some (voice, s) := by
  have hi : i < 8 := (List.getElem?_eq_some_iff.1 hs).1
  induction listed generalizing j with
  | nil => cases hvoice
  | cons first listed ih =>
      have hlength : (Stream.all.map fun s => (first, s)).length = 8 := rfl
      rw [columns, List.flatMap_cons, ← columns]
      cases j with
      | zero =>
          obtain rfl := Option.some.inj hvoice
          rw [Nat.mul_zero, Nat.zero_add, List.getElem?_append_left (hlength ▸ hi),
            List.getElem?_map, hs]
          rfl
      | succ j =>
          rw [List.getElem?_append_right (by omega), hlength,
            show 8 * (j + 1) + i - 8 = 8 * j + i by omega]
          exact ih hvoice

theorem mem_of_mem_columns
    {voice : Nat} {s : Stream}
    (h : (voice, s) ∈ columns listed) :
    voice ∈ listed := by
  obtain ⟨v, hv, hmem⟩ := List.mem_flatMap.1 h
  obtain ⟨_, _, heq⟩ := List.mem_map.1 hmem
  cases heq
  exact hv

end Columns

section Rows

variable {r : Recording} {voices : Nat} {blocks : List (Buffer × Nat)} {listed : List Nat}

/-- The fields of the first line. -/
def nameRow (listed : List Nat) : List String :=
  "frame" :: (columns listed).map fun (voice, s) => columnName voice s

/-- The fields of the line of a frame. -/
def frameRow (texts : List (Array String)) (frame : Nat) : List String :=
  toString frame :: texts.map fun column => column.getD frame ""

/-- The texts of the columns of the listed voices. -/
def columnsOf (r : Recording) (listed : List Nat) : List (Array String) :=
  (columns listed).map fun (voice, s) => columnTexts ((r.stream? voice s).getD #[])

theorem toList_foldl_fields (fields : List String) (line : String) :
    (fields.foldl (fun line field => line ++ "," ++ field) line).toList
      = line.toList ++ fields.flatMap fun field => ',' :: field.toList := by
  induction fields generalizing line with
  | nil => simp
  | cons field fields ih =>
      rw [List.foldl_cons, ih, List.flatMap_cons]
      simp

theorem toList_csvLine (first : String) (fields : List String) :
    (csvLine first fields).toList = pageText [first :: fields] := by
  rw [csvLine, String.toList_append, toList_foldl_fields, ← lineText_cons]
  simp [pageText]

/-- The lines of frames, behind what is written already. -/
theorem toList_csvRows (texts : List (Array String)) (count : Nat) :
    ∀ (frame : Nat) (done : String),
      (csvRows texts count frame done).toList
        = done.toList ++ pageText ((List.range' frame count).map (frameRow texts)) := by
  induction count with
  | zero =>
      intro frame done
      simp [csvRows, pageText]
  | succ count ih =>
      intro frame done
      have hline :
          (texts.foldl (fun line column => line ++ "," ++ column.getD frame "")
              (done ++ toString frame)).toList
            = done.toList ++ lineText (frameRow texts frame) := by
        rw [frameRow, lineText_cons, ← List.append_assoc, ← String.toList_append,
          ← toList_foldl_fields, List.foldl_map]
      rw [csvRows, ih, String.toList_append, hline, List.range'_succ, List.map_cons, pageText,
        pageText, List.flatMap_cons]
      simp

theorem mapM_eq_some_map
    {α β : Type} {f : α → Option β} {g : α → β} {as : List α}
    (h : ∀ a ∈ as, f a = some (g a)) :
    as.mapM f = some (as.map g) := by
  induction as with
  | nil => rfl
  | cons a as ih =>
      have hrest := ih fun b hb => h b (List.mem_cons_of_mem _ hb)
      rw [List.mapM_cons, h a List.mem_cons_self, hrest]
      rfl

theorem Holds.csvColumns?_eq
    (h : r.Holds voices blocks)
    (hlisted : ∀ voice ∈ listed, voice < voices) :
    r.csvColumns? listed = some (r.columnsOf listed) := by
  refine mapM_eq_some_map ?_
  rintro ⟨voice, s⟩ hmem
  obtain ⟨signal, hsignal, -⟩ := h.stream?_eq (hlisted voice (mem_of_mem_columns hmem)) s
  dsimp only
  rw [hsignal]
  rfl

/-- The text of a recording is a line of names and a line for each frame. -/
theorem Holds.exists_csv
    (h : r.Holds voices blocks)
    (hlisted : ∀ voice ∈ listed, voice < voices) :
    ∃ text, r.csv? listed = some text
      ∧ text.toList
        = pageText (nameRow listed
            :: (List.range r.frames).map (frameRow (r.columnsOf listed))) := by
  have hheader : (csvHeader listed).toList = pageText [nameRow listed] :=
    toList_csvLine _ _
  rw [csv?]
  split
  case isTrue hnone =>
    -- without frames no column is looked up, and the line of names is the whole text
    refine ⟨_, rfl, ?_⟩
    rw [hheader, hnone]
    rfl
  case isFalse =>
    rw [h.csvColumns?_eq hlisted]
    refine ⟨_, rfl, ?_⟩
    rw [toList_csvRows, hheader, ← List.range_eq_range']
    simp [pageText]

theorem isField_of_mem_nameRow
    {field : String}
    (hfield : field ∈ nameRow listed) :
    IsField field := by
  rcases List.mem_cons.1 hfield with rfl | hfield
  · constructor <;> decide
  · obtain ⟨⟨voice, s⟩, -, rfl⟩ := List.mem_map.1 hfield
    exact isField_columnName voice s

theorem isField_of_mem_frameRow
    {f : Nat} {field : String}
    (hfield : field ∈ frameRow (r.columnsOf listed) f) :
    IsField field := by
  rcases List.mem_cons.1 hfield with rfl | hfield
  · exact isField_toString f
  · rw [columnsOf, List.map_map] at hfield
    obtain ⟨⟨voice, s⟩, -, rfl⟩ := List.mem_map.1 hfield
    exact isField_getD_columnTexts _ f

/-- No line is without fields, and none of the fields holds a separator. -/
theorem isField_of_mem_rows
    {row : List String}
    (hrow : row ∈ nameRow listed :: (List.range r.frames).map (frameRow (r.columnsOf listed))) :
    row ≠ [] ∧ ∀ field ∈ row, IsField field := by
  rcases List.mem_cons.1 hrow with rfl | hrow
  · exact ⟨List.cons_ne_nil _ _, fun _ => isField_of_mem_nameRow⟩
  · obtain ⟨f, -, rfl⟩ := List.mem_map.1 hrow
    exact ⟨List.cons_ne_nil _ _, fun _ => isField_of_mem_frameRow⟩

/-- What is read in the text of a recording of several blocks. -/
structure Tabulates (r : Recording) (blocks : List (Buffer × Nat)) (listed : List Nat)
    (text : String) : Prop where
  /-- Every line is ended by a line feed, and nothing follows the last one. -/
  ended : (text.toList.splitOn '\n').getLast? = some []
  lines : (rowsOf text).length = r.frames + 1
  widths : ∀ row ∈ rowsOf text, row.length = 1 + 8 * listed.length
  heading : cell? text 0 0 = some "frame"
  /-- The first line names the streams of each listed voice. -/
  names : ∀ (j voice i : Nat) (s : Stream), listed[j]? = some voice → Stream.all[i]? = some s →
    cell? text 0 (1 + 8 * j + i) = some ("v" ++ toString voice ++ "." ++ s.name)
  numbers : ∀ f < r.frames, cell? text (f + 1) 0 = some (toString f)
  /-- The line of a frame has the samples of each listed voice, as they were recorded. -/
  samples : ∀ f < r.frames, ∀ (j voice i : Nat) (s : Stream),
    listed[j]? = some voice → Stream.all[i]? = some s →
    ∃ x, (recorded blocks (Buffer.planeOf voice s))[f]? = some x
      ∧ cell? text (f + 1) (1 + 8 * j + i) = some (Binary32.plainText x)

theorem Holds.sample_recorded
    (h : r.Holds voices blocks)
    {voice f : Nat}
    (hvoice : voice < voices)
    (s : Stream)
    (hf : f < r.frames) :
    ∃ x, (recorded blocks (Buffer.planeOf voice s))[f]? = some x
      ∧ (columnTexts ((r.stream? voice s).getD #[])).getD f "" = Binary32.plainText x := by
  have hlt : f < (recorded blocks (Buffer.planeOf voice s)).length := by
    rw [h.frames_eq, if_neg (by omega)] at hf
    rw [h.length_recorded _ (h.planeOf_lt hvoice s)]
    exact hf
  obtain ⟨signal, hsignal, hrecorded⟩ := h.stream?_eq hvoice s
  refine ⟨_, List.getElem?_eq_getElem hlt, ?_⟩
  rw [getD_columnTexts, hsignal, Option.getD_some, hrecorded, List.getElem?_eq_getElem hlt]
  rfl

/-- The text of what a recording holds, read back. -/
theorem Holds.tabulates
    (h : r.Holds voices blocks)
    (hlisted : ∀ voice ∈ listed, voice < voices)
    {text : String}
    (htext : text.toList
      = pageText (nameRow listed :: (List.range r.frames).map (frameRow (r.columnsOf listed)))) :
    r.Tabulates blocks listed text := by
  have hrows := rowsOf_pageText htext fun _ => isField_of_mem_rows
  have hframe : ∀ f < r.frames, ∀ place,
      cell? text (f + 1) place = (frameRow (r.columnsOf listed) f)[place]? := by
    intro f hf place
    rw [cell?, hrows, List.getElem?_cons_succ, List.getElem?_map, List.getElem?_range hf]
    rfl
  have hplace : ∀ j i, 1 + 8 * j + i = 8 * j + i + 1 := by omega
  constructor
  · rw [htext, splitOn_pageText fun _ hrow => (isField_of_mem_rows hrow).2, List.getLast?_concat]
  · rw [hrows, List.length_cons, List.length_map, List.length_range]
  · intro row hrow
    rw [hrows] at hrow
    rcases List.mem_cons.1 hrow with rfl | hrow
    · rw [nameRow, List.length_cons, List.length_map, length_columns, Nat.add_comm]
    · obtain ⟨f, -, rfl⟩ := List.mem_map.1 hrow
      rw [frameRow, List.length_cons, List.length_map, columnsOf, List.length_map, length_columns,
        Nat.add_comm]
  · rw [cell?, hrows]
    rfl
  · intro j voice i s hvoice hs
    rw [cell?, hrows, hplace, List.getElem?_cons_zero, Option.bind_some, nameRow,
      List.getElem?_cons_succ, List.getElem?_map, getElem?_columns hvoice hs]
    rfl
  · intro f hf
    rw [hframe f hf]
    rfl
  · intro f hf j voice i s hvoice hs
    obtain ⟨x, hx, htext⟩ :=
      h.sample_recorded (hlisted voice (List.mem_of_getElem? hvoice)) s hf
    refine ⟨x, hx, ?_⟩
    rw [hframe f hf, hplace, frameRow, List.getElem?_cons_succ, List.getElem?_map, columnsOf,
      List.getElem?_map, getElem?_columns hvoice hs, Option.map_some, Option.map_some, htext]

/--
A recording begins without frames, and blocks that fit are put behind it.  Whatever
voices of it are listed, it has a text; cut into lines and fields, that text has a
line for each frame behind a line of names, and in it the text of every recorded
sample, at the place that its frame, its voice in the list and its stream give it.
-/
theorem csv_tabulates
    {sampleRate : Float32}
    (happended : (empty voices sampleRate).appendAll? blocks = some r)
    (hlisted : ∀ voice ∈ listed, voice < r.voices) :
    (∃ text, r.csv? listed = some text ∧ r.Tabulates blocks listed text)
    ∧ (∀ voice < r.voices, ∀ s, ∃ signal, r.stream? voice s = some signal
        ∧ signal.toList = recorded blocks (Buffer.planeOf voice s))
    ∧ r.frames = if r.voices = 0 then 0 else (blocks.map Prod.snd).sum := by
  have h := holds_of_appendAll? happended
  rw [h.voices_eq] at hlisted ⊢
  obtain ⟨text, hcsv, htext⟩ := h.exists_csv hlisted
  exact ⟨⟨text, hcsv, h.tabulates hlisted htext⟩, fun _ hvoice s => h.stream?_eq hvoice s,
    h.frames_eq⟩

/-- Two frames of one block and one of another; the voice is listed twice. -/
theorem csv_twoBlocks :
    let blocks := [(Buffer.filled 1 3 0.5, 2), (Buffer.filled 1 1 0.25, 1)]
    ∃ r text, (empty 1 48000.0).appendAll? blocks = some r
      ∧ (∀ voice ∈ [0, 0], voice < r.voices)
      ∧ r.csv? [0, 0] = some text
      ∧ r.Tabulates blocks [0, 0] text
      ∧ r.frames = 3
      ∧ (rowsOf text).length = 4
      ∧ cell? text 0 10 = some "v0.gate"
      ∧ cell? text 3 0 = some "2"
      ∧ cell? text 3 10 = some "0.25" := by
  intro blocks
  obtain ⟨r, happended⟩ : ∃ r, (empty 1 48000.0).appendAll? blocks = some r :=
    Option.isSome_iff_exists.1 (by decide +kernel)
  have hlisted : ∀ voice ∈ [0, 0], voice < r.voices := by
    rw [(holds_of_appendAll? happended).voices_eq]
    decide
  obtain ⟨⟨text, hcsv, htext⟩, -, hframes⟩ := csv_tabulates happended hlisted
  rw [(holds_of_appendAll? happended).voices_eq] at hframes
  have hframes : r.frames = 3 := hframes
  obtain ⟨x, hx, hcell⟩ := htext.samples 2 (by omega) 1 0 1 .gate rfl rfl
  have hx : some 0.25 = some x := hx
  refine ⟨r, text, happended, hlisted, hcsv, htext, hframes, ?_, ?_, ?_, ?_⟩
  · rw [htext.lines, hframes]
  · exact htext.names 1 0 1 .gate rfl rfl
  · exact htext.numbers 2 (by omega)
  · obtain rfl := Option.some.inj hx
    exact hcell.trans (congrArg some (by decide +kernel))

end Rows

end Recording
end Polyphony
