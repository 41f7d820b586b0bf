import Jbr.Http.Query

/-!
# The chunked body of a query

When every allocation, print and write succeeds, the visitor's buffer fills with
frames and leaves as a chunk whenever it holds `JBR_HTTP_CHUNK_SIZE` bytes or more.
`chunkStream` says which chunks leave and what stays buffered.  The run of
`_jbr_on_query` is then one header block, those chunks, a last chunk with what
was left and the closing `\r\n`, the terminating `0\r\n\r\n`, and `http_complete`.
-/

namespace Jbr.Http

open Jbr.Foundation

def docFrame (d : Doc) : Bytes := frame d.id d.json.2

def explainLead : Option Bytes → Bytes
  | none => []
  | some log => log ++ dashes

/-- The three `fio_write`s of one chunk. -/
def chunkEvents (data : Bytes) : List Event :=
  [.write (hexUpper data.length ++ crlf), .write data, .write crlf]

/-- The chunks written as frames `fs` arrive at a buffer holding `buf`, and what stays buffered. -/
def chunkStream (buf : Bytes) : List Bytes → List Bytes × Bytes
  | [] => ([], buf)
  | f :: fs =>
      if (buf ++ f).length < jbrHttpChunkSize then chunkStream (buf ++ f) fs
      else ((buf ++ f) :: (chunkStream [] fs).1, (chunkStream [] fs).2)

def queryChunks (lead : Bytes) (docs : List Doc) : List Bytes :=
  (chunkStream lead (docs.map docFrame)).1 ++ [(chunkStream lead (docs.map docFrame)).2 ++ crlf]

/-! ## What the chunks carry -/

theorem chunkStream_long (buf : Bytes) (fs : List Bytes) :
    ∀ ch ∈ (chunkStream buf fs).1, jbrHttpChunkSize ≤ ch.length := by
  induction fs generalizing buf with
  | nil => simp [chunkStream]
  | cons f fs ih =>
      unfold chunkStream
      split
      · exact ih _
      · intro ch hch
        rcases List.mem_cons.mp hch with rfl | hch
        · omega
        · exact ih [] ch hch

theorem chunkStream_flatten (buf : Bytes) (fs : List Bytes) :
    (chunkStream buf fs).1.flatten ++ (chunkStream buf fs).2 = buf ++ fs.flatten := by
  induction fs generalizing buf with
  | nil => simp [chunkStream]
  | cons f fs ih =>
      unfold chunkStream
      split
      · simp [ih]
      · simp [ih []]

theorem chunkStream_append (buf : Bytes) (fs gs : List Bytes) :
    chunkStream buf (fs ++ gs) =
      ((chunkStream buf fs).1 ++ (chunkStream (chunkStream buf fs).2 gs).1,
        (chunkStream (chunkStream buf fs).2 gs).2) := by
  induction fs generalizing buf with
  | nil => rfl
  | cons f fs ih =>
      simp only [List.cons_append, chunkStream]
      split
      · exact ih _
      · simp [ih []]

theorem chunkStream_buffer_lt (buf : Bytes) (fs : List Bytes)
    (h : buf.length < jbrHttpChunkSize ∨ fs ≠ []) :
    (chunkStream buf fs).2.length < jbrHttpChunkSize := by
  induction fs generalizing buf with
  | nil => simpa [chunkStream] using h
  | cons f fs ih =>
      unfold chunkStream
      split
      · exact ih _ (.inl ‹_›)
      · exact ih [] (.inl (by decide))

/-- The connection after visits of documents that all print. -/
def afterVisits (o : List Event) (lead : Bytes) (docs : List Doc) : Conn :=
  ⟨o ++ .headers :: (chunkStream lead (docs.map docFrame)).1.flatMap chunkEvents, [], true,
    some (chunkStream lead (docs.map docFrame)).2, none, some (lit "application/json")⟩

/-! ## One run with every call succeeding -/

section Runs

variable (K : Codes) (out : List Event) (ds : Bool) (e ct : Option Bytes)

theorem wbufCat_run (w : Option Bytes) (data : Bytes) :
    (wbufCat K data).run ⟨out, [], ds, w, e, ct⟩ =
      .ok () ⟨out, [], ds, some (w.getD [] ++ data), e, ct⟩ :=
  rfl

theorem chunkHeaders_run (w : Option Bytes) :
    (chunkHeaders K).run ⟨out, [], ds, w, e, ct⟩ =
      .ok () ⟨out ++ (if ds then [] else [.headers]), [], true, w, e,
        if ds then ct else ct.or (some (lit "application/json"))⟩ := by
  cases ds <;> simp [chunkHeaders, jbrHttpSetContentType, writeOut, attempt, ioOk_run]

theorem chunkWrite_run (w : Option Bytes) (data : Bytes) :
    (chunkWrite K data).run ⟨out, [], ds, w, e, ct⟩ =
      .ok () ⟨out ++ chunkEvents data, [], ds, some [], e, ct⟩ := by
  simp [chunkWrite, chunkEvents, writeOut, attempt, ioOk_run]

theorem jbrFlushChunk_run_false (buf : Bytes) :
    (jbrFlushChunk K false).run ⟨out, [], ds, some buf, e, ct⟩ =
      .ok () ⟨out ++ (if ds then [] else [.headers]) ++
        (if buf.length < jbrHttpChunkSize then [] else chunkEvents buf), [], true,
        some (if buf.length < jbrHttpChunkSize then buf else []), e,
        if ds then ct else ct.or (some (lit "application/json"))⟩ := by
  by_cases h : buf.length < jbrHttpChunkSize
  · simp only [jbrFlushChunk, Bool.not_false, Bool.true_and, decide_eq_true_eq, Bool.false_eq_true,
      if_true, if_false, bind_pure_comp, id_map', run_bind, chunkHeaders_run, run_get, Option.getD_some,
      h, run_pure, List.append_nil]
  · have hpos : 0 < buf.length := by unfold jbrHttpChunkSize at h; omega
    simp only [jbrFlushChunk, Bool.not_false, Bool.true_and, decide_eq_true_eq, Bool.false_eq_true,
      if_true, if_false, bind_pure_comp, id_map', run_bind, chunkHeaders_run, run_get, Option.getD_some,
      h, hpos, chunkWrite_run, List.append_assoc]

theorem jbrFlushChunk_run_true (buf : Bytes) (hbuf : 0 < buf.length) :
    (jbrFlushChunk K true).run ⟨out, [], true, some buf, e, ct⟩ =
      .ok () ⟨out ++ chunkEvents buf ++ [.write (lit "0\r\n\r\n")], [], true, some [], e, ct⟩ := by
  simp [jbrFlushChunk, chunkHeaders_run, chunkWrite_run, hbuf, writeOut, attempt, ioOk_run]

theorem jbrQueryVisitor_run (w : Option Bytes) (d : Doc) (hd : d.json.1 = 0) :
    (jbrQueryVisitor K d).run ⟨out, [], ds, w, e, ct⟩ =
      .ok () ⟨out ++ (if ds then [] else [.headers]) ++
        (if (w.getD [] ++ explainLead e ++ docFrame d).length < jbrHttpChunkSize then []
          else chunkEvents (w.getD [] ++ explainLead e ++ docFrame d)), [], true,
        some (if (w.getD [] ++ explainLead e ++ docFrame d).length < jbrHttpChunkSize
          then w.getD [] ++ explainLead e ++ docFrame d else []), none,
        if ds then ct else ct.or (some (lit "application/json"))⟩ := by
  have halloc : (visitorAlloc K).run ⟨out, [], ds, w, e, ct⟩ =
      .ok () ⟨out, [], ds, some (w.getD []), e, ct⟩ := by
    cases w <;> rfl
  have hexplain : ∀ buf, (visitorExplain K).run ⟨out, [], ds, some buf, e, ct⟩ =
      .ok () ⟨out, [], ds, some (buf ++ explainLead e), none, ct⟩ := by
    intro buf
    cases e <;> simp [visitorExplain, explainLead, wbufCat_run]
  simp [jbrQueryVisitor, halloc, hexplain, wbufCat_run, hd, jbrFlushChunk_run_false, docFrame,
    frame]

theorem forM_visitor_run (docs : List Doc) (hdocs : ∀ d ∈ docs, d.json.1 = 0) (buf : Bytes) :
    (docs.forM (jbrQueryVisitor K)).run ⟨out, [], true, some buf, none, ct⟩ =
      .ok () ⟨out ++ (chunkStream buf (docs.map docFrame)).1.flatMap chunkEvents, [], true,
        some (chunkStream buf (docs.map docFrame)).2, none, ct⟩ := by
  induction docs generalizing out buf with
  | nil => simp [chunkStream]
  | cons d docs ih =>
      have hd := hdocs d (List.mem_cons_self d docs)
      have ih := fun o => ih o fun x hx => hdocs x (List.mem_cons_of_mem d hx)
      rw [List.forM_cons', run_bind, jbrQueryVisitor_run K out true none ct (some buf) d hd]
      by_cases h : buf.length + (docFrame d).length < jbrHttpChunkSize <;>
        simp [ih, chunkStream, explainLead, h]

theorem forM_visitor_run_first (docs : List Doc) (hne : docs ≠ [])
    (hdocs : ∀ d ∈ docs, d.json.1 = 0) :
    (docs.forM (jbrQueryVisitor K)).run ⟨out, [], false, none, e, none⟩ =
      .ok () (afterVisits out (explainLead e) docs) := by
  obtain ⟨d, docs, rfl⟩ := List.exists_cons_of_ne_nil hne
  have hd := hdocs d (List.mem_cons_self d docs)
  have hrest := fun o => forM_visitor_run K o (some (lit "application/json")) docs
    fun x hx => hdocs x (List.mem_cons_of_mem d hx)
  rw [List.forM_cons', run_bind, jbrQueryVisitor_run K out false e none none d hd]
  by_cases h : (explainLead e).length + (docFrame d).length < jbrHttpChunkSize <;>
    simp [hrest, chunkStream, h, afterVisits]

theorem explainLead_ite (ex : Bool) (log : Bytes) :
    explainLead (if ex then some log else none) = if ex then log ++ dashes else [] := by
  cases ex <;> rfl

theorem ejdbExec_run (run : ExecRun) (ex : Bool) (hne : run.docs ≠ [])
    (hdocs : ∀ d ∈ run.docs, d.json.1 = 0) :
    (ejdbExec K run ex).run ⟨out, [], false, none, if ex then some [] else none, none⟩ =
      if run.rc ≠ 0 then .error run.rc (afterVisits out (if ex then run.log ++ dashes else []) run.docs)
      else .ok () (afterVisits out (if ex then run.log ++ dashes else []) run.docs) := by
  have hv := forM_visitor_run_first K out (if ex then some run.log else none) run.docs hne hdocs
  rw [explainLead_ite] at hv
  cases ex <;> simp only [ejdbExec, run_bind, run_modify, run_pure, if_true, if_false,
    Bool.false_eq_true, Option.map_some', List.nil_append] at hv ⊢ <;> rw [hv] <;>
    split_ifs <;> rfl

theorem queryExec_run (B : Backend) (q : Bytes) (ex : Bool) (hrc : (B.exec q).rc = 0)
    (hne : (B.exec q).docs ≠ []) (hdocs : ∀ d ∈ (B.exec q).docs, d.json.1 = 0) :
    (queryExec B K q ex).run ⟨out, [], false, none, none, none⟩ =
      .ok () ⟨out ++ [.exec q ex, .headers] ++
        (queryChunks (if ex then (B.exec q).log ++ dashes else []) (B.exec q).docs).flatMap
          chunkEvents ++ [.write (lit "0\r\n\r\n")], [], true, some [], none,
        some (lit "application/json")⟩ := by
  simp [queryExec, explainAlloc_run K ex ⟨out, [], false, none, none, none⟩ rfl,
    ejdbExec_run K _ _ _ hne hdocs, hrc, queryFlush, afterVisits, wbufCat_run,
    jbrFlushChunk_run_true, crlf, queryChunks]

theorem queryExec_run_error (B : Backend) (q : Bytes) (ex : Bool) (hrc : (B.exec q).rc ≠ 0)
    (hne : (B.exec q).docs ≠ []) (hdocs : ∀ d ∈ (B.exec q).docs, d.json.1 = 0) :
    (queryExec B K q ex).run ⟨out, [], false, none, none, none⟩ =
      .error (B.exec q).rc (afterVisits (out ++ [.exec q ex])
        (if ex then (B.exec q).log ++ dashes else []) (B.exec q).docs) := by
  simp [queryExec, explainAlloc_run K ex ⟨out, [], false, none, none, none⟩ rfl,
    ejdbExec_run K _ _ _ hne hdocs, hrc]

theorem queryExec_run_nil (B : Backend) (q : Bytes) (ex : Bool) (hrc : (B.exec q).rc = 0)
    (hnil : (B.exec q).docs = []) :
    (queryExec B K q ex).run ⟨out, [], false, none, none, none⟩ =
      .ok () ⟨out ++ [.exec q ex], [], false, none, if ex then some (B.exec q).log else none, none⟩ := by
  cases ex <;> simp only [queryExec, ejdbExec, Bool.false_eq_true, if_true, if_false, hnil,
    List.forM_nil', hrc, ne_eq, not_true_eq_false, bind_pure_comp, map_pure, id_map', queryFlush, pure_bind,
    run_bind, explainAlloc_run, emit_run, run_modify, run_get, Option.map_some', List.nil_append,
    Option.isSome_none, run_pure]

end Runs

/-! ## The response -/

theorem queryChunks_spec (lead : Bytes) (docs : List Doc) :
    (∀ ch ∈ queryChunks lead docs, ch ≠ []) ∧
    (∀ ch ∈ (queryChunks lead docs).dropLast, jbrHttpChunkSize ≤ ch.length) ∧
    (queryChunks lead docs).flatten = lead ++ (docs.map docFrame).flatten ++ crlf := by
  have hlong := chunkStream_long lead (docs.map docFrame)
  refine ⟨fun ch hch => ?_, by simpa [queryChunks] using hlong, ?_⟩
  · rcases List.mem_append.mp hch with hch | hch
    · have := hlong ch hch
      unfold jbrHttpChunkSize at this
      exact List.ne_nil_of_length_pos (by omega)
    · simp_all [crlf]
  · rw [queryChunks, List.flatten_append, List.flatten_singleton, ← List.append_assoc,
      chunkStream_flatten]

theorem chunkStream_take_prefix (lead : Bytes) (docs : List Doc) (k : Nat) :
    (chunkStream lead ((docs.take k).map docFrame)).1 <+: queryChunks lead docs := by
  have h : docs.map docFrame = (docs.take k).map docFrame ++ (docs.drop k).map docFrame := by
    rw [← List.map_append, List.take_append_drop]
  rw [queryChunks, h, chunkStream_append, List.append_assoc]
  exact List.prefix_append _ _

section Admitted

variable (B : Backend) (K : Codes) (req : HttpRequest) (ctx : JbrCtx)
  (hbody : 0 < req.body.length) (hq : B.jqlCreate (cstr req.body) = 0)
  (hanon : ¬ (ctx.readAnon ∧ B.jqlHasApply (cstr req.body))) (hh : req.hints ≠ .repeated)
include hbody hq hanon hh

theorem jbrOnQuery_run_admitted :
    (jbrOnQuery B K req ctx).run (Conn.init []) =
      (rcOf (queryExec B K (cstr req.body) (hintsExplain req.hints)) >>=
        queryFinish B K (cstr req.body)).run ⟨[.jqlCreate (cstr req.body)], [], false, none, none, none⟩ := by
  unfold jbrOnQuery
  cases hr : req.hints with
  | repeated => exact absurd hr hh
  | absent | single => simp [show ¬ req.body.length < 1 by omega, hq, hanon, Conn.init]

theorem jbrOnQuery_out_docs (hrc : (B.exec (cstr req.body)).rc = 0)
    (hne : (B.exec (cstr req.body)).docs ≠ []) (hdocs : ∀ d ∈ (B.exec (cstr req.body)).docs, d.json.1 = 0) :
    (endConn ((jbrOnQuery B K req ctx).run (Conn.init []))).out =
      [.jqlCreate (cstr req.body), .exec (cstr req.body) (hintsExplain req.hints), .headers] ++
        (queryChunks (if hintsExplain req.hints then (B.exec (cstr req.body)).log ++ dashes else [])
          (B.exec (cstr req.body)).docs).flatMap chunkEvents ++
        [.write (lit "0\r\n\r\n"), .complete] := by
  rw [jbrOnQuery_run_admitted B K req ctx hbody hq hanon hh, run_bind,
    rcOf_run_ok (queryExec_run K _ B _ _ hrc hne hdocs)]
  simp [queryFinish]

theorem jbrOnQuery_run_failed (hrc : (B.exec (cstr req.body)).rc ≠ 0)
    (hne : (B.exec (cstr req.body)).docs ≠ []) (hdocs : ∀ d ∈ (B.exec (cstr req.body)).docs, d.json.1 = 0) :
    (jbrOnQuery B K req ctx).run (Conn.init []) =
      (queryFinish B K (cstr req.body) (B.exec (cstr req.body)).rc).run
        (afterVisits [.jqlCreate (cstr req.body), .exec (cstr req.body) (hintsExplain req.hints)]
          (if hintsExplain req.hints then (B.exec (cstr req.body)).log ++ dashes else [])
          (B.exec (cstr req.body)).docs) := by
  rw [jbrOnQuery_run_admitted B K req ctx hbody hq hanon hh, run_bind,
    rcOf_run_error (queryExec_run_error K _ B _ _ hrc hne hdocs)]
  rfl

theorem jbrOnQuery_out_nil (hrc : (B.exec (cstr req.body)).rc = 0)
    (hnil : (B.exec (cstr req.body)).docs = []) :
    (endConn ((jbrOnQuery B K req ctx).run (Conn.init []))).out =
      [.jqlCreate (cstr req.body), .exec (cstr req.body) (hintsExplain req.hints),
        .send 200 none []] := by
  rw [jbrOnQuery_run_admitted B K req ctx hbody hq hanon hh, run_bind,
    rcOf_run_ok (queryExec_run_nil K _ B _ _ hrc hnil)]
  simp [queryFinish]

/-- A query whose run visits documents, every call succeeding, is answered by one
chunked `200`: the header block once, chunks of `JBR_HTTP_CHUNK_SIZE` bytes or more
but the last, the terminating chunk and `http_complete`; the chunks carry the
explain log and the dashes when the hints ask for them, the frames, and `\r\n`.
Visit by visit, the chunks written so far begin those of the response, and fewer
than `JBR_HTTP_CHUNK_SIZE` bytes stay buffered. -/
theorem jbrOnQuery_chunked (hrc : (B.exec (cstr req.body)).rc = 0)
    (hne : (B.exec (cstr req.body)).docs ≠ [])
    (hdocs : ∀ d ∈ (B.exec (cstr req.body)).docs, d.json.1 = 0) :
    (endConn ((jbrOnQuery B K req ctx).run (Conn.init []))).out =
        [.jqlCreate (cstr req.body), .exec (cstr req.body) (hintsExplain req.hints), .headers] ++
          (queryChunks (if hintsExplain req.hints then (B.exec (cstr req.body)).log ++ dashes else [])
            (B.exec (cstr req.body)).docs).flatMap chunkEvents ++
          [.write (lit "0\r\n\r\n"), .complete] ∧
      (∀ ch ∈ queryChunks (if hintsExplain req.hints then (B.exec (cstr req.body)).log ++ dashes else [])
        (B.exec (cstr req.body)).docs, ch ≠ []) ∧
      (∀ ch ∈ (queryChunks (if hintsExplain req.hints then (B.exec (cstr req.body)).log ++ dashes else [])
        (B.exec (cstr req.body)).docs).dropLast, jbrHttpChunkSize ≤ ch.length) ∧
      (queryChunks (if hintsExplain req.hints then (B.exec (cstr req.body)).log ++ dashes else [])
        (B.exec (cstr req.body)).docs).flatten =
        (if hintsExplain req.hints then (B.exec (cstr req.body)).log ++ dashes else []) ++
          ((B.exec (cstr req.body)).docs.map docFrame).flatten ++ crlf ∧
      ∀ k, 0 < k → k ≤ (B.exec (cstr req.body)).docs.length →
        (((B.exec (cstr req.body)).docs.take k).forM (jbrQueryVisitor K)).run
            ⟨[.jqlCreate (cstr req.body), .exec (cstr req.body) (hintsExplain req.hints)], [], false,
              none, if hintsExplain req.hints then some (B.exec (cstr req.body)).log else none, none⟩ =
          .ok () (afterVisits [.jqlCreate (cstr req.body), .exec (cstr req.body) (hintsExplain req.hints)]
            (if hintsExplain req.hints then (B.exec (cstr req.body)).log ++ dashes else [])
            ((B.exec (cstr req.body)).docs.take k)) ∧
        (chunkStream (if hintsExplain req.hints then (B.exec (cstr req.body)).log ++ dashes else [])
            (((B.exec (cstr req.body)).docs.take k).map docFrame)).1 <+:
          queryChunks (if hintsExplain req.hints then (B.exec (cstr req.body)).log ++ dashes else [])
            (B.exec (cstr req.body)).docs ∧
        (chunkStream (if hintsExplain req.hints then (B.exec (cstr req.body)).log ++ dashes else [])
          (((B.exec (cstr req.body)).docs.take k).map docFrame)).2.length < jbrHttpChunkSize := by
  obtain ⟨hne', hlong, hflat⟩ := queryChunks_spec
    (if hintsExplain req.hints then (B.exec (cstr req.body)).log ++ dashes else [])
    (B.exec (cstr req.body)).docs
  refine ⟨jbrOnQuery_out_docs B K req ctx hbody hq hanon hh hrc hne hdocs, hne', hlong, hflat,
    fun k hk hkn => ⟨?_, chunkStream_take_prefix _ _ k, chunkStream_buffer_lt _ _ (.inr ?_)⟩⟩
  · rw [forM_visitor_run_first K _ _ _ (by simpa using ⟨by omega, hne⟩)
      fun d hd => hdocs d (List.mem_of_mem_take hd), explainLead_ite]
  · simpa using ⟨by omega, hne⟩

end Admitted

theorem jbrOnQuery_chunked_sample :
    (endConn ((jbrOnQuery { Backend.ok with exec := fun _ => ⟨[], [⟨1, (0, lit "{}")⟩], 0⟩ }
      Codes.sample ⟨lit "POST", some [47], .absent, .absent, lit "q", 0⟩
      ⟨.post, none, 0, false⟩).run (Conn.init []))).out =
      [.jqlCreate (lit "q"), .exec (lit "q") false, .headers] ++
        (queryChunks [] [⟨1, (0, lit "{}")⟩]).flatMap chunkEvents ++ [.write (lit "0\r\n\r\n"), .complete] :=
  (jbrOnQuery_chunked { Backend.ok with exec := fun _ => ⟨[], [⟨1, (0, lit "{}")⟩], 0⟩ }
    Codes.sample ⟨lit "POST", some [47], .absent, .absent, lit "q", 0⟩ ⟨.post, none, 0, false⟩
    (by decide) rfl (by decide) (by decide) rfl (List.cons_ne_nil _ _) (by decide)).1

/-- A query whose run visits no document, every call succeeding, is answered with
an empty `200`: no header block, and the explain log is not sent. -/
theorem jbrOnQuery_noDocs (B : Backend) (K : Codes) (req : HttpRequest) (ctx : JbrCtx)
    (hbody : 0 < req.body.length) (hq : B.jqlCreate (cstr req.body) = 0)
    (hanon : ¬ (ctx.readAnon ∧ B.jqlHasApply (cstr req.body))) (hh : req.hints ≠ .repeated)
    (hrc : (B.exec (cstr req.body)).rc = 0) (hnil : (B.exec (cstr req.body)).docs = []) :
    (endConn ((jbrOnQuery B K req ctx).run (Conn.init []))).out =
      [.jqlCreate (cstr req.body), .exec (cstr req.body) (hintsExplain req.hints),
        .send 200 none []] :=
  jbrOnQuery_out_nil B K req ctx hbody hq hanon hh hrc hnil

theorem jbrOnQuery_noDocs_sample :
    (endConn ((jbrOnQuery { Backend.ok with exec := fun _ => ⟨lit "plan", [], 0⟩ } Codes.sample
      ⟨lit "POST", some [47], .absent, .single (lit "explain"), lit "q", 0⟩
      ⟨.post, none, 0, false⟩).run (Conn.init []))).out =
      [.jqlCreate (lit "q"), .exec (lit "q") true, .send 200 none []] :=
  jbrOnQuery_noDocs { Backend.ok with exec := fun _ => ⟨lit "plan", [], 0⟩ } Codes.sample
    ⟨lit "POST", some [47], .absent, .single (lit "explain"), lit "q", 0⟩ ⟨.post, none, 0, false⟩
    (by decide) rfl (by decide) (by decide) rfl rfl

end Jbr.Http
