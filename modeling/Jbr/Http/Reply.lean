import Jbr.Http.Stream

/-!
# What a query answers, wherever it fails

Any call of the query path may fail.  Until `finish:` nothing answers, and the
client has the chunked header block and writes after it exactly when `data_sent`
is set (`Streaming`).  At `finish:` the code and `data_sent` pick the one answer:
a response of its own while nothing was written, or `http_complete` after the
writes, except that a query parse error or a missing collection is reported with
a `400` even after the header block.
-/

namespace Jbr.Http

open Jbr.Foundation

def Event.toClient (e : Event) : Bool := e.wire || e.reply

/-- What `_jbr_on_query` puts on the wire. -/
inductive QueryReply : List Event → Prop
  /-- one response of its own, before any header block -/
  | response (st : Nat) (ctype : Option Bytes) (body : Bytes) (h : st = 400 ∨ st = 403 ∨ st = 500) :
      QueryReply [.send st ctype body]
  /-- `_jbr_http_send (req, 200, 0, 0, 0)`: a `200` with no body -/
  | empty (ctype : Option Bytes) : QueryReply [.send 200 ctype []]
  /-- the chunked `200`: the header block, writes, `http_complete` -/
  | chunked (ws : List Bytes) : QueryReply (.headers :: ws.map .write ++ [.complete])
  /-- a `400` after the header block and writes -/
  | late (ws : List Bytes) (ctype : Option Bytes) (body : Bytes) :
      QueryReply (.headers :: ws.map .write ++ [.send 400 ctype body])

/-- Since the query began at `o`: nothing answered, and the header block is out iff `data_sent`. -/
def Streaming (o : List Event) (c : Conn) : Prop :=
  ∃ t, c.out = o ++ t ∧ (∀ e ∈ t, e.reply = false) ∧
    ∃ ws : List Bytes, t.filter Event.wire = if c.dataSent then .headers :: ws.map .write else []

def Answered (o : List Event) (c : Conn) : Prop :=
  ∃ t, c.out = o ++ t ∧ QueryReply (t.filter Event.toClient)

/-! ## The phase before `finish:` -/

section Phase

variable {o : List Event} {c : Conn}

theorem streaming_start (c : Conn) (h : c.dataSent = false) : Streaming c.out c :=
  ⟨[], by simp, by simp, [], by simp [h]⟩

theorem streaming_ioStable : IoStable (Streaming o) := fun _ _ h => h

theorem Streaming.congr {c' : Conn} (h : Streaming o c) (hout : c'.out = c.out)
    (hds : c'.dataSent = c.dataSent) : Streaming o c' := by
  rw [Streaming, hout, hds]
  exact h

theorem reply_append {t : List Event} (h : ∀ x ∈ t, x.reply = false) (e : Event)
    (he : e.reply = false) : ∀ x ∈ t ++ [e], x.reply = false := by
  intro x hx
  rcases List.mem_append.mp hx with hx | hx
  exacts [h x hx, List.mem_singleton.mp hx ▸ he]

theorem Streaming.emit (h : Streaming o c) {e : Event} (hw : e.wire = false)
    (hr : e.reply = false) : Streaming o { c with out := c.out ++ [e] } := by
  obtain ⟨t, ht, hrep, ws, hws⟩ := h
  exact ⟨t ++ [e], by simp [ht], reply_append hrep e hr, ws, by simp [List.filter_append, hw, hws]⟩

theorem Streaming.write (h : Streaming o c) (hs : c.dataSent = true) (b : Bytes) :
    Streaming o { c with out := c.out ++ [.write b] } := by
  obtain ⟨t, ht, hrep, ws, hws⟩ := h
  refine ⟨t ++ [.write b], by simp [ht], reply_append hrep (.write b) rfl, ws ++ [b], ?_⟩
  simp [List.filter_append, hws, hs, Event.wire]

theorem Streaming.headers (h : Streaming o c) (hs : c.dataSent = false) :
    Streaming o { c with out := c.out ++ [.headers], dataSent := true } := by
  obtain ⟨t, ht, hrep, ws, hws⟩ := h
  refine ⟨t ++ [.headers], by simp [ht], reply_append hrep .headers rfl, [], ?_⟩
  simp [List.filter_append, hws, hs, Event.wire]

theorem Streaming.filter_toClient {t : List Event} (h : ∀ e ∈ t, e.reply = false) :
    t.filter Event.toClient = t.filter Event.wire :=
  List.filter_congr fun e he => by simp [Event.toClient, h e he]

theorem Streaming.answered (h : Streaming o c) (r : Event) (hr : r.reply = true)
    (hq : ∀ ws : List Bytes,
      QueryReply ((if c.dataSent then .headers :: ws.map .write else []) ++ [r]))
    (c' : Conn) (hout : c'.out = c.out ++ [r]) : Answered o c' := by
  obtain ⟨t, ht, hrep, ws, hws⟩ := h
  refine ⟨t ++ [r], by rw [hout, ht, List.append_assoc], ?_⟩
  rw [List.filter_append, Streaming.filter_toClient hrep, hws]
  simpa [Event.toClient, hr] using hq ws

end Phase

/-! ## Every step keeps the phase -/

section Steps

variable (B : Backend) (K : Codes) (o : List Event)

theorem modify_streaming {f : Conn → Conn} (hf : ∀ c, (f c).out = c.out ∧ (f c).dataSent = c.dataSent) :
    Hoare (Streaming o) (modify f : Serve Unit) (fun _ => Streaming o) (Streaming o) :=
  Hoare.modify fun c h => h.congr (hf c).1 (hf c).2

theorem emit_streaming {e : Event} (hw : e.wire = false) (hr : e.reply = false) :
    Hoare (Streaming o) (emit e) (fun _ => Streaming o) (Streaming o) :=
  emit_hoare fun _ h => h.emit hw hr

theorem wbufCat_streaming (data : Bytes) :
    Hoare (Streaming o) (wbufCat K data) (fun _ => Streaming o) (Streaming o) :=
  Hoare.bind (attempt_hoare streaming_ioStable _) fun _ =>
    modify_streaming o fun _ => ⟨rfl, rfl⟩

theorem chunkHeaders_streaming :
    Hoare (Streaming o) (chunkHeaders K) (fun _ c => Streaming o c ∧ c.dataSent = true)
      (Streaming o) := by
  rintro ⟨out, io, ds, wb, ex, ct⟩ h
  cases ds with
  | true => exact ⟨h, rfl⟩
  | false =>
      rcases io with _ | ⟨_ | _, rest⟩
      exacts [⟨(h.headers rfl).congr rfl rfl, rfl⟩, h.congr rfl rfl, ⟨(h.headers rfl).congr rfl rfl, rfl⟩]

theorem writeOut_streaming (b : Bytes) :
    Hoare (fun c => Streaming o c ∧ c.dataSent = true) (writeOut K (.write b))
      (fun _ c => Streaming o c ∧ c.dataSent = true) (Streaming o) :=
  writeOut_hoare K (fun _ _ h => h) (fun _ h => h.1) fun _ h => ⟨h.1.write h.2 b, h.2⟩

theorem jbrFlushChunk_streaming (finish : Bool) :
    Hoare (Streaming o) (jbrFlushChunk K finish) (fun _ => Streaming o) (Streaming o) := by
  have hw : ∀ data, Hoare (fun c => Streaming o c ∧ c.dataSent = true) (chunkWrite K data)
      (fun _ c => Streaming o c ∧ c.dataSent = true) (Streaming o) := fun data =>
    Hoare.bind (writeOut_streaming K o _) fun _ => Hoare.bind (writeOut_streaming K o _) fun _ =>
      Hoare.bind (writeOut_streaming K o _) fun _ =>
        Hoare.modify fun _ h => ⟨h.1.congr rfl rfl, h.2⟩
  refine Hoare.bind (chunkHeaders_streaming K o) fun _ => Hoare.bind Hoare.get fun _ =>
    Hoare.cond (fun _ => Hoare.pure fun _ h => h.1.1) fun _ => ?_
  refine Hoare.conseq (P := fun c => Streaming o c ∧ c.dataSent = true)
    (Q := fun _ c => Streaming o c ∧ c.dataSent = true) ?_ (fun _ h => h.1) (fun _ _ h => h.1)
    (fun _ h => h)
  exact Hoare.bind (Hoare.cond (fun _ => hw _) fun _ => Hoare.pure fun _ h => h) fun _ =>
    Hoare.cond (fun _ => writeOut_streaming K o _) fun _ => Hoare.pure fun _ h => h

theorem jbrQueryVisitor_streaming (d : Doc) :
    Hoare (Streaming o) (jbrQueryVisitor K d) (fun _ => Streaming o) (Streaming o) := by
  have halloc : Hoare (Streaming o) (visitorAlloc K) (fun _ => Streaming o) (Streaming o) :=
    Hoare.get_bind fun _ => Hoare.cond (fun _ => Hoare.pure fun _ h => h) fun _ =>
      Hoare.bind (attempt_hoare streaming_ioStable _) fun _ => modify_streaming o fun _ => ⟨rfl, rfl⟩
  have hexplain : Hoare (Streaming o) (visitorExplain K) (fun _ => Streaming o) (Streaming o) := by
    refine Hoare.get_bind fun s => ?_
    cases s.explain with
    | none => exact Hoare.pure fun _ h => h
    | some log =>
        exact Hoare.bind (wbufCat_streaming K o _) fun _ => Hoare.bind (wbufCat_streaming K o _)
          fun _ => modify_streaming o fun _ => ⟨rfl, rfl⟩
  exact Hoare.bind halloc fun _ => Hoare.bind hexplain fun _ =>
    Hoare.bind (wbufCat_streaming K o _) fun _ => Hoare.cond (fun _ => Hoare.throw _ fun _ h => h)
      fun _ => Hoare.bind (modify_streaming o fun _ => ⟨rfl, rfl⟩) fun _ => jbrFlushChunk_streaming K o false

theorem queryExec_streaming (q : Bytes) (explain : Bool) :
    Hoare (Streaming o) (queryExec B K q explain) (fun _ => Streaming o) (Streaming o) := by
  have halloc : Hoare (Streaming o) (explainAlloc K explain) (fun _ => Streaming o) (Streaming o) :=
    Hoare.cond (fun _ => Hoare.bind (attempt_hoare streaming_ioStable _) fun _ =>
      modify_streaming o fun _ => ⟨rfl, rfl⟩) fun _ => Hoare.pure fun _ h => h
  have hexec : Hoare (Streaming o) (ejdbExec K (B.exec q) explain) (fun _ => Streaming o)
      (Streaming o) :=
    Hoare.bind (Hoare.cond (fun _ => modify_streaming o fun _ => ⟨rfl, rfl⟩) fun _ => Hoare.pure fun _ h => h)
      fun _ => Hoare.bind (Hoare.forM fun d _ => jbrQueryVisitor_streaming K o d) fun _ =>
        Hoare.cond (fun _ => Hoare.throw _ fun _ h => h) fun _ => Hoare.pure fun _ h => h
  have hflush : Hoare (Streaming o) (queryFlush K) (fun _ => Streaming o) (Streaming o) :=
    Hoare.get_bind fun _ => Hoare.cond (fun _ => Hoare.bind (wbufCat_streaming K o _) fun _ =>
      jbrFlushChunk_streaming K o true) fun _ => Hoare.pure fun _ h => h
  exact Hoare.bind halloc fun _ => Hoare.bind (emit_streaming o rfl rfl) fun _ =>
    Hoare.bind hexec fun _ => hflush

/-! ## `finish:` -/

theorem queryFinish_answered (q : Bytes) (rc : Iwrc) :
    Hoare (Streaming o) (queryFinish B K q rc) (fun _ => Answered o) (Answered o) := by
  have hcomplete : ∀ {s : Conn}, (∀ ws : List Bytes, QueryReply
      ((if s.dataSent then .headers :: ws.map .write else []) ++ [.complete])) →
      Hoare (fun c => Streaming o c ∧ c = s) (emit .complete) (fun _ => Answered o) (Answered o) :=
    fun hq => emit_hoare fun c ⟨h, hcs⟩ => h.answered .complete rfl (hcs ▸ hq) _ rfl
  have hsend : ∀ {s : Conn} {st ct body}, (∀ t (ws : List Bytes), QueryReply
      ((if s.dataSent then .headers :: ws.map .write else []) ++ [.send st t body])) →
      Hoare (fun c => Streaming o c ∧ c = s) (jbrHttpSend st ct body) (fun _ => Answered o)
        (Answered o) :=
    fun hq => jbrHttpSend_hoare fun c ⟨h, hcs⟩ => h.answered (.send _ _ _) rfl (hcs ▸ hq _) _ rfl
  refine Hoare.bind Hoare.get fun s => Hoare.bind (S := fun _ => Answered o) ?_ fun _ =>
    Hoare.modify fun c h => h
  cases hs : s.dataSent <;> split_ifs <;>
    (first | refine hcomplete fun ws => ?_ | refine hsend fun t ws => ?_) <;>
    simp only [hs, Bool.false_eq_true, ↓reduceIte, List.nil_append] <;>
    first
    | contradiction
    | exact .response _ _ _ (by decide)
    | exact .empty _
    | exact .chunked ws
    | exact .late ws _ _

theorem jbrOnQuery_answered (req : HttpRequest) (ctx : JbrCtx) :
    Hoare (fun c => Streaming o c ∧ c.dataSent = false) (jbrOnQuery B K req ctx)
      (fun _ => Answered o) (Answered o) := by
  have hresp : ∀ st, st = 400 ∨ st = 403 ∨ st = 500 →
      Hoare (fun c => Streaming o c ∧ c.dataSent = false) (jbrHttpErrorSend st)
        (fun _ => Answered o) (Answered o) := fun st hst =>
    jbrHttpSend_hoare fun _ ⟨h, hs⟩ =>
      h.answered (.send _ _ _) rfl (fun _ => by simpa [hs] using QueryReply.response st _ [] hst) _ rfl
  have hfin : ∀ q rc, Hoare (fun c => Streaming o c ∧ c.dataSent = false) (queryFinish B K q rc)
      (fun _ => Answered o) (Answered o) := fun q rc =>
    (queryFinish_answered B K o q rc).conseq (fun _ h => h.1) (fun _ _ h => h) fun _ h => h
  unfold jbrOnQuery
  refine Hoare.cond (fun _ => hresp 400 (by decide)) fun _ =>
    Hoare.bind (emit_hoare fun _ ⟨h, hs⟩ => ⟨h.emit rfl rfl, hs⟩) fun _ =>
      Hoare.cond (fun _ => hfin _ _) fun _ => Hoare.cond (fun _ => hresp 403 (by decide)) fun _ => ?_
  split
  · exact hresp 400 (by decide)
  · exact Hoare.bind (rcOf_hoare ((queryExec_streaming B K o _ _).conseq (fun _ h => h.1)
      (fun _ _ h => h) fun _ h => h)) fun _ => queryFinish_answered B K o _ _

end Steps

/-- Wherever a call fails, `_jbr_on_query` answers once: a response of its own
(`400`, `403`, `500`, or an empty `200`) while nothing was written, or, after the
chunked header block and writes, `http_complete` or a `400`. -/
theorem jbrOnQuery_reply (B : Backend) (K : Codes) (req : HttpRequest) (ctx : JbrCtx) (c : Conn)
    (hc : c.dataSent = false) :
    ∃ t, (endConn ((jbrOnQuery B K req ctx).run c)).out = c.out ++ t ∧
      QueryReply (t.filter Event.toClient) := by
  have h := jbrOnQuery_answered B K c.out req ctx c ⟨streaming_start c hc, hc⟩
  revert h
  cases (jbrOnQuery B K req ctx).run c <;> exact id

/-- Two answers outside the forms of a query's reply.  A run that visits documents
and then fails with a query parse error or a missing collection is answered `400`
after the header block and the chunks, as `application/json`, the type
`_jbr_flush_chunk` set first; and a run that visits no document is answered with an
empty `200`, without the header block or the explain log. -/
theorem jbrOnQuery_answers_outside_forms (B : Backend) (K : Codes) (req : HttpRequest)
    (ctx : JbrCtx) (hbody : 0 < req.body.length) (hq : B.jqlCreate (cstr req.body) = 0)
    (hanon : ¬ (ctx.readAnon ∧ B.jqlHasApply (cstr req.body))) (hh : req.hints ≠ .repeated) :
    ((B.exec (cstr req.body)).docs ≠ [] → (∀ d ∈ (B.exec (cstr req.body)).docs, d.json.1 = 0) →
      (iwrcStripCode (B.exec (cstr req.body)).rc = K.jqlErrorQueryParse ∨
        iwrcStripCode (B.exec (cstr req.body)).rc = K.jqlErrorNoCollection) →
      (endConn ((jbrOnQuery B K req ctx).run (Conn.init []))).out =
        [.jqlCreate (cstr req.body), .exec (cstr req.body) (hintsExplain req.hints), .headers] ++
          (chunkStream (if hintsExplain req.hints then (B.exec (cstr req.body)).log ++ dashes else [])
            ((B.exec (cstr req.body)).docs.map docFrame)).1.flatMap chunkEvents ++
          [.send 400 (some (lit "application/json"))
            (if iwrcStripCode (B.exec (cstr req.body)).rc = K.jqlErrorQueryParse
              then B.jqlError (cstr req.body)
              else B.explained (iwrcStripCode (B.exec (cstr req.body)).rc))]) ∧
    ((B.exec (cstr req.body)).rc = 0 → (B.exec (cstr req.body)).docs = [] →
      (endConn ((jbrOnQuery B K req ctx).run (Conn.init []))).out =
        [.jqlCreate (cstr req.body), .exec (cstr req.body) (hintsExplain req.hints),
          .send 200 none []]) := by
  refine ⟨fun hne hdocs hcode => ?_, jbrOnQuery_out_nil B K req ctx hbody hq hanon hh⟩
  have hpos : 0 < iwrcStripCode (B.exec (cstr req.body)).rc := by
    rcases hcode with h | h <;> rw [h] <;> exact (K.valid _ (by simp)).1
  have hrc : (B.exec (cstr req.body)).rc ≠ 0 := fun h => by simp [h, iwrcStripCode] at hpos
  rw [jbrOnQuery_run_failed B K req ctx hbody hq hanon hh hrc hne hdocs]
  rcases hcode with h | h
  · simp [queryFinish, afterVisits, hrc, h]
  · simp [queryFinish, afterVisits, hrc, h, K.noCollection_ne_queryParse, jbrRcReport]

theorem jbrOnQuery_answers_outside_forms_sample :
    (endConn ((jbrOnQuery { Backend.ok with exec := fun _ => ⟨[], [⟨1, (0, lit "{}")⟩], 2⟩ }
      Codes.sample ⟨lit "POST", some [47], .absent, .absent, lit "q", 0⟩
      ⟨.post, none, 0, false⟩).run (Conn.init []))).out =
      [.jqlCreate (lit "q"), .exec (lit "q") false, .headers] ++
        (chunkStream [] [docFrame ⟨1, (0, lit "{}")⟩]).1.flatMap chunkEvents ++
        [.send 400 (some (lit "application/json")) []] ∧
    (endConn ((jbrOnQuery { Backend.ok with exec := fun _ => ⟨lit "plan", [], 0⟩ } Codes.sample
      ⟨lit "POST", some [47], .absent, .single (lit "explain"), lit "q", 0⟩
      ⟨.post, none, 0, false⟩).run (Conn.init []))).out =
      [.jqlCreate (lit "q"), .exec (lit "q") true, .send 200 none []] :=
  ⟨(jbrOnQuery_answers_outside_forms { Backend.ok with exec := fun _ => ⟨[], [⟨1, (0, lit "{}")⟩], 2⟩ }
      Codes.sample ⟨lit "POST", some [47], .absent, .absent, lit "q", 0⟩ ⟨.post, none, 0, false⟩
      (by decide) rfl (by decide) (by decide)).1 (List.cons_ne_nil _ _) (by decide) (.inl rfl),
    (jbrOnQuery_answers_outside_forms { Backend.ok with exec := fun _ => ⟨lit "plan", [], 0⟩ }
      Codes.sample ⟨lit "POST", some [47], .absent, .single (lit "explain"), lit "q", 0⟩
      ⟨.post, none, 0, false⟩ (by decide) rfl (by decide) (by decide)).2 rfl rfl⟩

end Jbr.Http
