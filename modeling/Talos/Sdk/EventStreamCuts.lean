import Talos.Sdk.EventStream
import Mathlib.Data.List.Basic
import Mathlib.Data.List.Induction

/-!
# Chunks of an event stream

The reader removes byte order marks before it joins CR and LF, but holds a carriage return
back only if it is the last unit of the text. So a CR and an LF with byte order marks
between them are one line end, or two if a chunk ends after one of the marks. Cut anywhere
else, a text is read as in one chunk: the lines behind the reader and its buffer are those
of the text so far (`Reads`), and two clean cuts end with the same stream (`readStream_cut`).
-/

namespace Talos.Sdk.EventStream

open Encoding

variable {options : Options} {stream : Stream} {reader : Reader}
  {text chunk x y line : Utf16} {u : UInt16}

/-- A cut after a byte order mark between a CR and an LF. -/
def SplitsLineEnd (x y : Utf16) : Prop :=
  x.getLast? ≠ some cr ∧ (x.filter (· ≠ bom)).getLast? = some cr ∧
    (y.filter (· ≠ bom)).head? = some lf

instance (x y : Utf16) : Decidable (SplitsLineEnd x y) := inferInstanceAs (Decidable (_ ∧ _))

/-- No chunk after the text so far splits a line end. -/
def Clean (text : Utf16) (decoder : TextDecoder) : List (List UInt8) → Prop
  | [] => True
  | value :: chunks =>
      ¬ SplitsLineEnd text (decoder.decode value).1 ∧
        Clean (text ++ (decoder.decode value).1) (decoder.decode value).2 chunks

/-- A CR and an LF that have byte order marks between them. -/
def Ambiguous (text : Utf16) : Prop :=
  ∃ a n b, text = a ++ cr :: (List.replicate (n + 1) bom ++ lf :: b)

/-! ### Line ends of a text in two parts -/

theorem replaceCrLf_append (safe : ¬ (x.getLast? = some cr ∧ y.head? = some lf)) :
    replaceCrLf (x ++ y) = replaceCrLf x ++ replaceCrLf y := by
  induction x using replaceCrLf.induct with
  | case1 => rfl
  | case2 u =>
      cases y with
      | nil => rfl
      | cons v y =>
          have single : ¬ (u = cr ∧ v = lf) := by simpa using safe
          rw [List.singleton_append, replaceCrLf.eq_3, if_neg single]
          rfl
  | case3 u v rest pair ih =>
      rw [List.cons_append, List.cons_append, replaceCrLf, if_pos pair, replaceCrLf, if_pos pair]
      cases rest with
      | nil =>
          obtain ⟨rfl, rfl⟩ := pair
          rfl
      | cons w rest =>
          rw [ih (by simpa using safe)]
          rfl
  | case4 u v rest single ih =>
      rw [List.cons_append, List.cons_append, replaceCrLf, if_neg single, replaceCrLf,
        if_neg single, ← List.cons_append, ih (by simpa using safe)]
      rfl

theorem normalize_append
    (safe : ¬ ((x.filter (· ≠ bom)).getLast? = some cr ∧ (y.filter (· ≠ bom)).head? = some lf)) :
    normalize (x ++ y) = normalize x ++ normalize y := by
  rw [normalize, List.filter_append, replaceCrLf_append safe, List.map_append]
  rfl

/-- Without byte order marks and line ends. -/
def Plain (line : Utf16) : Prop := ∀ u ∈ line, u ≠ bom ∧ u ≠ cr ∧ u ≠ lf

theorem mem_replaceCrLf (mem : u ∈ replaceCrLf x) : u ∈ x := by
  induction x using replaceCrLf.induct with
  | case1 => cases mem
  | case2 v => exact mem
  | case3 v w rest pair ih =>
      rw [replaceCrLf, if_pos pair] at mem
      rcases List.mem_cons.mp mem with rfl | later
      · rw [pair.2]
        exact List.mem_cons_of_mem _ List.mem_cons_self
      · exact List.mem_cons_of_mem _ (List.mem_cons_of_mem _ (ih later))
  | case4 v w rest single ih =>
      rw [replaceCrLf, if_neg single] at mem
      rcases List.mem_cons.mp mem with rfl | later
      · exact List.mem_cons_self
      · exact List.mem_cons_of_mem _ (ih later)

theorem mem_normalize (mem : u ∈ normalize x) : u ≠ bom ∧ u ≠ cr := by
  obtain ⟨v, found, rfl⟩ := List.mem_map.mp mem
  have kept : v ≠ bom := by simpa using (List.mem_filter.mp (mem_replaceCrLf found)).2
  by_cases isCr : v = cr
  · rw [if_pos isCr]
    exact ⟨by decide, by decide⟩
  · rw [if_neg isCr]
    exact ⟨kept, isCr⟩

/-- The open line that is put before the next chunk is normalized already. -/
theorem split_last_plain (x : Utf16) : Plain (split lf (normalize x)).2 := by
  intro u mem
  obtain ⟨found, notLf⟩ := mem_split_last mem
  obtain ⟨notBom, notCr⟩ := mem_normalize found
  exact ⟨notBom, notCr, notLf⟩

theorem Plain.filter (plain : Plain line) : line.filter (· ≠ bom) = line :=
  List.filter_eq_self.mpr fun u mem => by simpa using (plain u mem).1

theorem Plain.getLast (plain : Plain line) : line.getLast? ≠ some cr := by
  intro last
  exact (plain cr (List.mem_of_getLast? last)).2.1 rfl

theorem Plain.replaceCrLf (plain : Plain line) : replaceCrLf line = line := by
  induction line using replaceCrLf.induct with
  | case1 => rfl
  | case2 v => rfl
  | case3 v w rest pair ih => exact absurd pair.1 (plain v List.mem_cons_self).2.1
  | case4 v w rest single ih =>
      rw [EventStream.replaceCrLf, if_neg single, ih fun u mem => plain u (List.mem_cons_of_mem _ mem)]

theorem Plain.normalize (plain : Plain line) : normalize line = line := by
  rw [EventStream.normalize, plain.filter, plain.replaceCrLf]
  calc line.map (fun u => if u = cr then lf else u) = line.map id :=
        List.map_congr_left fun u mem => if_neg (plain u mem).2.1
    _ = line := List.map_id line

theorem Plain.normalize_append (plain : Plain line) (y : Utf16) :
    EventStream.normalize (line ++ y) = line ++ EventStream.normalize y := by
  rw [EventStream.normalize_append, plain.normalize]
  rw [plain.filter]
  exact fun both => plain.getLast both.1

/-! ### The carriage return held back -/

def body (text : Utf16) : Utf16 := if text.getLast? = some cr then text.dropLast else text

def held (text : Utf16) : Utf16 := if text.getLast? = some cr then [cr] else []

theorem body_append_held (text : Utf16) : body text ++ held text = text := by
  unfold body held
  by_cases last : text.getLast? = some cr
  · rw [if_pos last, if_pos last]
    obtain ⟨front, rfl⟩ := List.getLast?_eq_some_iff.mp last
    rw [List.dropLast_concat]
  · rw [if_neg last, if_neg last, List.append_nil]

/-- The end of a text is that of its second part, or of a first part that holds nothing back. -/
theorem body_append (safe : y = [] → x.getLast? ≠ some cr) :
    body (x ++ y) = x ++ body y ∧ held (x ++ y) = held y := by
  cases y with
  | nil =>
      have last := safe rfl
      rw [List.append_nil, body, held, if_neg last, if_neg last]
      exact ⟨(List.append_nil x).symm, rfl⟩
  | cons v y =>
      have same : (x ++ v :: y).getLast? = (v :: y).getLast? :=
        List.getLast?_append_of_ne_nil x (List.cons_ne_nil v y)
      unfold body held
      rw [same]
      split
      · exact ⟨List.dropLast_append_of_ne_nil (List.cons_ne_nil v y), rfl⟩
      · exact ⟨rfl, rfl⟩

theorem body_of_ne (other : text.getLast? ≠ some cr) : body text = text ∧ held text = [] :=
  ⟨if_neg other, if_neg other⟩

theorem body_cr_head (y : Utf16) : ((body (cr :: y)).filter (· ≠ bom)).head? ≠ some lf := by
  cases y with
  | nil => simp [body]
  | cons v y =>
      have start : body ([cr] ++ v :: y) = [cr] ++ body (v :: y) :=
        (body_append fun none => absurd none (List.cons_ne_nil v y)).1
      rw [List.singleton_append, List.singleton_append] at start
      rw [start, List.filter_cons_of_pos (by decide), List.head?_cons]
      decide

theorem head_of_body (head : ((body y).filter (· ≠ bom)).head? = some lf) :
    (y.filter (· ≠ bom)).head? = some lf := by
  rw [← body_append_held y, List.filter_append, List.head?_append, head]
  rfl

/-! ### The reader after a text -/

/-- The lines behind the reader and its buffer are those of the text. -/
structure Reads (options : Options) (stream : Stream) (text : Utf16) (reader : Reader) : Prop where
  buffer : reader.buffer = (split lf (normalize (body text))).2 ++ held text
  lines : (reader.frame, reader.stream) =
    (split lf (normalize (body text))).1.foldl (processLine options) (.empty, stream)

theorem Reader.process_eq (reader : Reader) (chunk : Utf16) :
    reader.process options chunk =
      let text := reader.buffer ++ chunk
      let (lines, last) := split lf (normalize (body text))
      let (frame, stream) := lines.foldl (processLine options) (reader.frame, reader.stream)
      { reader with buffer := last ++ held text, frame := frame, stream := stream } := by
  have parts : (if (reader.buffer ++ chunk).getLast? = some cr then
      ((reader.buffer ++ chunk).dropLast, [cr]) else (reader.buffer ++ chunk, [])) =
        (body (reader.buffer ++ chunk), held (reader.buffer ++ chunk)) := by
    unfold body held
    split <;> rfl
  unfold Reader.process
  dsimp only
  rw [parts]
  dsimp only
  split
  · next empty =>
      rw [empty]
      rfl
  · rfl

theorem Reads.process (reads : Reads options stream text reader)
    (clean : ¬ SplitsLineEnd text chunk) :
    Reads options stream (text ++ chunk) (reader.process options chunk) := by
  have plain := split_last_plain (body text)
  -- what follows the part of the text that is behind the reader or an open line
  have rest : text ++ chunk = body text ++ (held text ++ chunk) := by
    rw [← List.append_assoc, body_append_held]
  have buffered : reader.buffer ++ chunk =
      (split lf (normalize (body text))).2 ++ (held text ++ chunk) := by
    rw [reads.buffer, List.append_assoc]
  obtain ⟨bodyText, heldText⟩ : body (text ++ chunk) = body text ++ body (held text ++ chunk) ∧
      held (text ++ chunk) = held (held text ++ chunk) := by
    rw [rest]
    apply body_append
    intro nothing
    have open' : text.getLast? ≠ some cr := by
      intro last
      rw [held, if_pos last] at nothing
      cases nothing
    rw [(body_of_ne open').1]
    exact open'
  obtain ⟨bodyBuffer, heldBuffer⟩ : body (reader.buffer ++ chunk) =
        (split lf (normalize (body text))).2 ++ body (held text ++ chunk) ∧
      held (reader.buffer ++ chunk) = held (held text ++ chunk) := by
    rw [buffered]
    exact body_append fun _ => plain.getLast
  have joined : normalize (body text ++ body (held text ++ chunk)) =
      normalize (body text) ++ normalize (body (held text ++ chunk)) := by
    apply normalize_append
    rintro ⟨last, head⟩
    by_cases ends : text.getLast? = some cr
    · rw [held, if_pos ends] at head
      exact body_cr_head chunk head
    · obtain ⟨whole, nothing⟩ := body_of_ne ends
      rw [whole] at last
      rw [nothing, List.nil_append] at head
      exact clean ⟨ends, last, head_of_body head⟩
  have whole : split lf (normalize (body (text ++ chunk))) =
      ((split lf (normalize (body text))).1 ++
          (split lf (normalize (body (reader.buffer ++ chunk)))).1,
        (split lf (normalize (body (reader.buffer ++ chunk)))).2) := by
    rw [bodyText, joined, split_append, bodyBuffer, plain.normalize_append]
  rw [Reader.process_eq]
  constructor
  · rw [whole, heldText, ← heldBuffer]
  · rw [whole, List.foldl_append, ← reads.lines]

/-! ### Any chunks -/

/-- A byte order mark at the start of a text changes nothing. -/
theorem Reads.bom_cons (reads : Reads options stream text reader) :
    Reads options stream (bom :: text) reader := by
  obtain ⟨bodyText, heldText⟩ : body ([bom] ++ text) = [bom] ++ body text ∧
      held ([bom] ++ text) = held text := body_append fun _ => by decide
  have same : normalize (body (bom :: text)) = normalize (body text) := by
    rw [← List.singleton_append, bodyText, normalize, normalize, List.singleton_append,
      List.filter_cons_of_neg (by simp)]
  constructor
  · rw [same, ← List.singleton_append, heldText]
    exact reads.buffer
  · rw [same]
    exact reads.lines

theorem Reads.start (options : Options) (stream : Stream) :
    Reads options stream [] (.start stream) := ⟨rfl, rfl⟩

/-- The decoded chunk, without a byte order mark that starts the first one. -/
def firstStripped (reader : Reader) (value : List UInt8) : Utf16 :=
  let chunk := (reader.decoder.decode value).1
  if reader.firstChunk ∧ chunk.head? = some bom then chunk.tail else chunk

theorem Reads.step (reads : Reads options stream text reader) {v : List UInt8}
    (clean : ¬ SplitsLineEnd text (firstStripped reader v)) :
    Reads options stream (text ++ firstStripped reader v) (readChunk options reader v) :=
  have kept : Reads options stream text
      { reader with decoder := (reader.decoder.decode v).2, firstChunk := false } :=
    ⟨reads.buffer, reads.lines⟩
  kept.process clean

theorem readChunk_eq (options : Options) (reader : Reader) (value : List UInt8) :
    readChunk options reader value =
      { reader with
        decoder := (reader.decoder.decode value).2
        firstChunk := false }.process options (firstStripped reader value) := rfl

theorem readChunk_decoder (options : Options) (reader : Reader) (value : List UInt8) :
    (readChunk options reader value).decoder = (reader.decoder.decode value).2 ∧
      (readChunk options reader value).firstChunk = false := by
  rw [readChunk_eq, Reader.process_eq]
  exact ⟨rfl, rfl⟩

/-- The chunks after the first. -/
theorem Reads.chunks (reads : Reads options stream text reader) (later : reader.firstChunk = false)
    (chunks : List (List UInt8))
    (clean : Clean text reader.decoder chunks) :
    Reads options stream (text ++ (reader.decoder.decode chunks.flatten).1)
      (chunks.foldl (readChunk options) reader) := by
  induction chunks generalizing reader text with
  | nil =>
      rw [List.flatten_nil, TextDecoder.decode_nil, List.append_nil]
      exact reads
  | cons value chunks ih =>
      have whole : firstStripped reader value = (reader.decoder.decode value).1 :=
        if_neg fun first => absurd first.1 (by simp [later])
      obtain ⟨decoder, first⟩ := readChunk_decoder options reader value
      obtain ⟨here, after⟩ := clean
      rw [← whole] at here
      rw [← whole, ← decoder] at after
      rw [List.flatten_cons, TextDecoder.decode_append, ← List.append_assoc, ← whole, ← decoder]
      exact ih (reads.step here) first after

/-- Two readers of one text end with the same stream. -/
theorem Reads.finish (reads : Reads options stream text reader) {other : Reader}
    (reads' : Reads options stream text other) : reader.finish = other.finish := by
  have lines := reads.lines.trans reads'.lines.symm
  obtain ⟨frame, streams⟩ := Prod.mk.inj lines
  unfold Reader.finish
  rw [reads.buffer, reads'.buffer, frame, streams]

theorem splitsLineEnd_bom_cons : SplitsLineEnd (bom :: text) y ↔ SplitsLineEnd text y := by
  have last : (bom :: text).getLast? = some cr ↔ text.getLast? = some cr := by
    cases text with
    | nil => decide
    | cons u text => rw [List.getLast?_cons_cons]
  unfold SplitsLineEnd
  rw [ne_eq, ne_eq, last, List.filter_cons_of_neg (by simp)]

theorem clean_bom_cons {decoder : TextDecoder} {chunks : List (List UInt8)} :
    Clean (bom :: text) decoder chunks ↔ Clean text decoder chunks := by
  induction chunks generalizing text decoder with
  | nil => exact Iff.rfl
  | cons value chunks ih => exact and_congr (not_congr splitsLineEnd_bom_cons) ih

/-- All chunks, by the first one as the reader takes it. -/
theorem reads_cons (options : Options) (stream : Stream) (value : List UInt8)
    (chunks : List (List UInt8))
    (clean : Clean (firstStripped (.start stream) value) (TextDecoder.fresh.decode value).2 chunks) :
    Reads options stream (firstStripped (.start stream) value ++
        ((TextDecoder.fresh.decode value).2.decode chunks.flatten).1)
      ((value :: chunks).foldl (readChunk options) (.start stream)) := by
  obtain ⟨decoder, first⟩ := readChunk_decoder options (.start stream) value
  have fresh : (Reader.start stream).decoder = .fresh := rfl
  rw [fresh] at decoder
  rw [← decoder] at clean ⊢
  have step := (Reads.start options stream).step (v := value) fun splits => nomatch splits.2.1
  exact step.chunks first chunks clean

/-- After all chunks of a clean cut the reader has read the decoded text. -/
theorem reads_chunks (options : Options) (stream : Stream) {chunks : List (List UInt8)}
    (clean : Clean [] .fresh chunks) :
    Reads options stream (TextDecoder.fresh.decode chunks.flatten).1
      (chunks.foldl (readChunk options) (.start stream)) := by
  cases chunks with
  | nil => exact .start options stream
  | cons value chunks =>
      obtain ⟨-, after⟩ := clean
      rw [List.flatten_cons, TextDecoder.decode_append]
      by_cases mark : (TextDecoder.fresh.decode value).1.head? = some bom
      · obtain ⟨rest, decoded⟩ := List.head?_eq_some_iff.mp mark
        have stripped : firstStripped (.start stream) value = rest :=
          (if_pos ⟨rfl, mark⟩).trans (congrArg List.tail decoded)
        rw [decoded, List.nil_append, clean_bom_cons, ← stripped] at after
        rw [decoded, List.cons_append, ← stripped]
        exact (reads_cons options stream value chunks after).bom_cons
      · have whole : firstStripped (.start stream) value = (TextDecoder.fresh.decode value).1 :=
          if_neg fun first => mark first.2
        rw [List.nil_append, ← whole] at after
        rw [← whole]
        exact reads_cons options stream value chunks after

/-- Two clean cuts of one stream end with the same events, last id and delay. -/
theorem readStream_cut {chunks chunks' : List (List UInt8)}
    (same : chunks.flatten = chunks'.flatten) (clean : Clean [] .fresh chunks)
    (clean' : Clean [] .fresh chunks') :
    readStream options stream chunks = readStream options stream chunks' := by
  have reads := reads_chunks options stream clean
  rw [same] at reads
  exact reads.finish (reads_chunks options stream clean')

/-- A line end of CR and LF, cut between the two. -/
def crLfCut : List (List UInt8) := [[100, 97, 116, 97, 58, 97, 13], [10, 10]]

theorem readStream_cut_crLf :
    readStream ⟨1000, 10⟩ ⟨none, 1000, []⟩ crLfCut =
      readStream ⟨1000, 10⟩ ⟨none, 1000, []⟩ [crLfCut.flatten] :=
  readStream_cut rfl ⟨by decide, by decide, trivial⟩ ⟨by decide, trivial⟩

/-- "data:a", CR, a byte order mark, and after the cut LF, "data:b" and two LF. -/
def markCut : List (List UInt8) :=
  [[100, 97, 116, 97, 58, 97, 13, 0xEF, 0xBB, 0xBF], [10, 100, 97, 116, 97, 58, 98, 10, 10]]

/-- In one chunk the two lines are one event, in two chunks each is an event. -/
theorem event_split :
    [markCut.flatten].flatten = markCut.flatten ∧
      (readStream ⟨1000, 10⟩ ⟨none, 1000, []⟩ [markCut.flatten]).dispatched =
        [⟨none, messageType, [97, 10, 98]⟩] ∧
      (readStream ⟨1000, 10⟩ ⟨none, 1000, []⟩ markCut).dispatched =
        [⟨none, messageType, [97]⟩, ⟨none, messageType, [98]⟩] := by
  decide

/-! ### Texts in which every cut is clean -/

theorem Ambiguous.append_right (ambiguous : Ambiguous x) (y : Utf16) : Ambiguous (x ++ y) := by
  obtain ⟨a, n, b, rfl⟩ := ambiguous
  exact ⟨a, n, b ++ y, by simp⟩

/-- A text that ends with CR up to byte order marks. -/
theorem exists_of_filter_getLast (last : (x.filter (· ≠ bom)).getLast? = some cr) :
    ∃ a n, x = a ++ cr :: List.replicate n bom := by
  induction x using List.reverseRecOn with
  | nil => cases last
  | append_singleton x u ih =>
      by_cases mark : u = bom
      · subst mark
        rw [List.filter_append, List.filter_cons_of_neg (by simp), List.filter_nil,
          List.append_nil] at last
        obtain ⟨a, n, rfl⟩ := ih last
        exact ⟨a, n + 1, by simp [List.replicate_succ']⟩
      · rw [List.filter_append, List.filter_cons_of_pos (by simpa using mark), List.filter_nil,
          List.getLast?_concat] at last
        cases last
        exact ⟨x, 0, rfl⟩

/-- A text that starts with LF up to byte order marks. -/
theorem exists_of_filter_head (head : (y.filter (· ≠ bom)).head? = some lf) :
    ∃ n b, y = List.replicate n bom ++ lf :: b := by
  induction y with
  | nil => cases head
  | cons u y ih =>
      by_cases mark : u = bom
      · subst mark
        rw [List.filter_cons_of_neg (by simp)] at head
        obtain ⟨n, b, rfl⟩ := ih head
        exact ⟨n + 1, b, rfl⟩
      · rw [List.filter_cons_of_pos (by simpa using mark), List.head?_cons] at head
        cases head
        exact ⟨0, y, rfl⟩

theorem ambiguous_of_filter (last : (x.filter (· ≠ bom)).getLast? = some cr)
    (head : (y.filter (· ≠ bom)).head? = some lf) (other : x.getLast? ≠ some cr) :
    Ambiguous (x ++ y) := by
  obtain ⟨a, n, rfl⟩ := exists_of_filter_getLast last
  obtain ⟨m, b, rfl⟩ := exists_of_filter_head head
  cases n with
  | zero => exact absurd (List.getLast?_concat ..) other
  | succ n =>
      have count : List.replicate (n + m + 1) bom =
          List.replicate (n + 1) bom ++ List.replicate m bom := by
        rw [List.replicate_append_replicate]
        congr 1
        omega
      refine ⟨a, n + m, b, ?_⟩
      rw [count]
      simp only [List.append_assoc, List.cons_append]


theorem ambiguous_of_splits (splits : SplitsLineEnd x y) : Ambiguous (x ++ y) :=
  ambiguous_of_filter splits.2.1 splits.2.2 splits.1

/-- Every cut of a text without such line ends is clean. -/
theorem clean_of_clear {decoder : TextDecoder} {chunks : List (List UInt8)}
    (clear : ¬ Ambiguous (text ++ (decoder.decode chunks.flatten).1)) :
    Clean text decoder chunks := by
  induction chunks generalizing text decoder with
  | nil => exact trivial
  | cons value chunks ih =>
      rw [List.flatten_cons, TextDecoder.decode_append, ← List.append_assoc] at clear
      exact ⟨fun splits => clear ((ambiguous_of_splits splits).append_right _), ih clear⟩

/-- So without CR, byte order marks and LF in a row the cut does not matter at all. -/
theorem readStream_clear {chunks chunks' : List (List UInt8)}
    (same : chunks.flatten = chunks'.flatten)
    (clear : ¬ Ambiguous (TextDecoder.fresh.decode chunks.flatten).1) :
    readStream options stream chunks = readStream options stream chunks' := by
  have reads := reads_chunks options stream (clean_of_clear clear)
  rw [same] at clear reads
  exact reads.finish (reads_chunks options stream (clean_of_clear clear))

end Talos.Sdk.EventStream
