import Jbr.Foundation.Memory

/-!
# Requests, the backend and the connection

The HTTP side of `jbr.c` reads a request that facil.io has parsed, calls ejdb2
and iowow, and answers through facil.io.  A request is a record of the parts
`jbr.c` reads.  The backend (`Backend`) is what ejdb2's and iowow's calls answer;
every result of it is a parameter, so a theorem about the gateway holds whatever
the database does.  The connection (`Conn`) collects what the gateway does in
order, as `Event`s: its calls into the database and everything it sends.  Calls
that fail for reasons outside the request (memory, the socket) take their outcome
from the list `io`.
-/

namespace Jbr.Http

open Jbr.Foundation

/-- `iwrc`, an `uint64_t`: zero for success. -/
abbrev Iwrc := Nat

/-- `iwrc_strip_code` -/
def iwrcStripCode (rc : Iwrc) : Iwrc := rc % 2 ^ 32

structure Codes where
  /-- `IWKV_ERROR_NOTFOUND` -/
  iwkvErrorNotfound : Iwrc
  /-- `JQL_ERROR_QUERY_PARSE` -/
  jqlErrorQueryParse : Iwrc
  /-- `JQL_ERROR_NO_COLLECTION` -/
  jqlErrorNoCollection : Iwrc
  /-- `JBR_ERROR_SEND_RESPONSE` -/
  jbrErrorSendResponse : Iwrc
  /-- `JBR_ERROR_WS_UPGRADE` -/
  jbrErrorWsUpgrade : Iwrc
  /-- `IW_ERROR_ALLOC` -/
  iwErrorAlloc : Iwrc
  /-- `JBL_ERROR_PARSE_JSON` ... `JBL_ERROR_JSON_POINTER` of the switch in `_jbr_on_patch` -/
  jblPatchErrors : List Iwrc
  valid : ∀ c ∈ [iwkvErrorNotfound, jqlErrorQueryParse, jqlErrorNoCollection,
    jbrErrorSendResponse, jbrErrorWsUpgrade, iwErrorAlloc] ++ jblPatchErrors, 0 < c ∧ c < 2 ^ 32
  distinct : ([iwkvErrorNotfound, jqlErrorQueryParse, jqlErrorNoCollection,
    jbrErrorSendResponse, jbrErrorWsUpgrade, iwErrorAlloc] ++ jblPatchErrors).Nodup

def Codes.sample : Codes :=
  ⟨1, 2, 3, 4, 5, 6, [10, 11, 12, 13, 14, 15, 16, 17, 18, 19], by decide, by decide⟩

theorem Codes.noCollection_ne_queryParse (K : Codes) :
    K.jqlErrorNoCollection ≠ K.jqlErrorQueryParse := by
  have h := K.distinct
  simp only [List.cons_append, List.nodup_cons, List.mem_cons, List.mem_append] at h
  exact fun e => h.2.1 (.inl e.symm)

/-- `jbr_method_t` -/
inductive Method where
  | get
  | put
  | patch
  | delete
  | post
  | head
  deriving DecidableEq, Repr

/-- A request header as `fiobj_hash_get2` returns it. -/
inductive Header where
  | absent
  | single (v : Bytes)
  | repeated
  deriving DecidableEq, Repr

/-- The parts of an `http_s` request that `jbr.c` reads. -/
structure HttpRequest where
  method : Bytes
  /-- `req->path`, absent when the request has none -/
  path : Option Bytes
  /-- `X-Access-Token` -/
  accessToken : Header
  /-- `X-Hints` -/
  hints : Header
  /-- `fiobj_data_read (req->body, 0)` -/
  body : Bytes
  /-- `req->method`, the `FIOBJ` handle that `_jbr_on_get` compares with `JBR_HEAD` -/
  methodObj : Nat
  deriving DecidableEq, Repr

/-- The fields of `EJDB_HTTP` that the gateway reads. -/
structure HttpConfig where
  /-- `access_token` with its `access_token_len`; `none` for `NULL` -/
  accessToken : Option Bytes
  readAnon : Bool
  blocking : Bool
  deriving DecidableEq, Repr

structure Doc where
  id : Int
  json : Iwrc × Bytes

structure ExecRun where
  log : Bytes
  docs : List Doc
  rc : Iwrc

structure Backend where
  /-- `ejdb_get (db, coll, id, &jbl)` -/
  get : Bytes → Int → Iwrc × Bytes
  /-- `ejdb_put (db, coll, jbl, id)` -/
  put : Bytes → Bytes → Int → Iwrc
  /-- `ejdb_put_new (db, coll, jbl, &id)` -/
  putNew : Bytes → Bytes → Iwrc × Int
  /-- `ejdb_patch (db, coll, json, id)` -/
  patch : Bytes → Bytes → Int → Iwrc
  /-- `ejdb_remove (db, coll, id)` -/
  remove : Bytes → Int → Iwrc
  /-- `jbl_from_json (&jbl, json)` -/
  fromJson : Bytes → Iwrc × Bytes
  /-- `jbl_as_json (jbl, jbl_xstr_json_printer, xstr, JBL_PRINT_PRETTY)` -/
  asJson : Bytes → Iwrc × Bytes
  /-- `jbl_as_json (jbl, jbl_count_json_printer, &nbytes, JBL_PRINT_PRETTY)` -/
  countJson : Bytes → Iwrc × Nat
  /-- `jql_create (&q, 0, query)` -/
  jqlCreate : Bytes → Iwrc
  /-- `jql_has_apply (q)` -/
  jqlHasApply : Bytes → Bool
  /-- `jql_error (q)` -/
  jqlError : Bytes → Bytes
  /-- `ejdb_exec (&ux)` on the query -/
  exec : Bytes → ExecRun
  /-- `iwlog_ecode_explained (rc)`, empty for `NULL` -/
  explained : Iwrc → Bytes

def Backend.ok : Backend where
  get _ _ := (0, [])
  put _ _ _ := 0
  putNew _ _ := (0, 1)
  patch _ _ _ := 0
  remove _ _ := 0
  fromJson j := (0, j)
  asJson j := (0, j)
  countJson j := (0, j.length)
  jqlCreate _ := 0
  jqlHasApply _ := false
  jqlError _ := []
  exec _ := ⟨[], [], 0⟩
  explained _ := []

inductive Event where
  /-- `ejdb_get` -/
  | get (coll : Bytes) (id : Int)
  /-- `ejdb_put` -/
  | put (coll doc : Bytes) (id : Int)
  /-- `ejdb_put_new` -/
  | putNew (coll doc : Bytes)
  /-- `ejdb_patch` -/
  | patch (coll json : Bytes) (id : Int)
  /-- `ejdb_remove` -/
  | remove (coll : Bytes) (id : Int)
  /-- `jql_create` -/
  | jqlCreate (query : Bytes)
  /-- `ejdb_exec`, with `ux.log` set or not -/
  | exec (query : Bytes) (log : Bool)
  /-- `_jbr_http_send`: a whole response -/
  | send (status : Nat) (ctype : Option Bytes) (body : Bytes)
  /-- facil.io's `http_send_error` -/
  | sendError (status : Nat)
  /-- `http_write_headers` of the chunked `200` of a query -/
  | headers
  /-- `fio_write` on the request's socket -/
  | write (data : Bytes)
  /-- `http_complete` -/
  | complete
  /-- `http_upgrade2ws`, with the context's `read_anon` -/
  | upgrade (readAnon : Bool)
  deriving DecidableEq, Repr

/-- The connection of a request, with the fields of `JBRCTX` the query path changes. -/
structure Conn where
  out : List Event
  /-- outcomes of the calls that can fail; success once the list is used up -/
  io : List Bool
  dataSent : Bool
  wbuf : Option Bytes
  explain : Option Bytes
  /-- the `Content-Type` among the response's `out_headers` -/
  ctype : Option Bytes
  deriving DecidableEq, Repr

def Conn.init (io : List Bool) : Conn := ⟨[], io, false, none, none, none⟩

abbrev Serve := EStateM Iwrc Conn

def emit (e : Event) : Serve Unit :=
  modify fun c => { c with out := c.out ++ [e] }

def ioOk : Serve Bool := do
  let c ← get
  match c.io with
  | [] => pure true
  | ok :: rest =>
      set { c with io := rest }
      pure ok

def attempt (rc : Iwrc) : Serve Unit := do
  if ← ioOk then pure () else throw rc

def writeOut (K : Codes) (e : Event) : Serve Unit := do
  attempt K.jbrErrorSendResponse
  emit e

/-- `_jbr_http_set_content_type (r, ctype)`: only when no `Content-Type` is set. -/
def jbrHttpSetContentType (ctype : Bytes) : Serve Unit :=
  modify fun c => { c with ctype := c.ctype.or (some ctype) }

/-- `_jbr_http_send (r, status, ctype, body, bodylen)` -/
def jbrHttpSend (status : Nat) (ctype : Option Bytes) (body : Bytes) : Serve Unit := do
  if let some t := ctype then jbrHttpSetContentType t
  emit (.send status (← get).ctype body)

/-- `_jbr_http_error_send (r, status)` -/
def jbrHttpErrorSend (status : Nat) : Serve Unit :=
  jbrHttpSend status none []

/-- `JBR_RC_REPORT (code, r, rc)` -/
def jbrRcReport (B : Backend) (code : Nat) (rc : Iwrc) : Serve Unit :=
  jbrHttpSend code (some (lit "text/plain")) (B.explained rc)

/-- facil.io's `http_send_error (req, status)` -/
def httpSendError (status : Nat) : Serve Unit :=
  emit (.sendError status)

/-! ## What a run appends -/

def endConn {α : Type} : EStateM.Result Iwrc Conn α → Conn
  | .ok _ c => c
  | .error _ c => c

@[simp] theorem endConn_ok {α : Type} (a : α) (c : Conn) :
    endConn (.ok a c : EStateM.Result Iwrc Conn α) = c := rfl

@[simp] theorem endConn_error {α : Type} (e : Iwrc) (c : Conn) :
    endConn (.error e c : EStateM.Result Iwrc Conn α) = c := rfl

/-- `Emits x P`: from any connection, `x` appends only events that satisfy `P`. -/
def Emits {α : Type} (x : Serve α) (P : Event → Prop) : Prop :=
  ∀ c, ∃ t, (endConn (x.run c)).out = c.out ++ t ∧ ∀ e ∈ t, P e

namespace Emits

variable {α β : Type} {P : Event → Prop}

theorem pure (a : α) : Emits (Pure.pure a : Serve α) P :=
  fun c => ⟨[], by simp [EStateM.run, Pure.pure, EStateM.pure], by simp⟩

theorem throw (rc : Iwrc) : Emits (MonadExcept.throw rc : Serve α) P :=
  fun c => ⟨[], by simp [EStateM.run, MonadExcept.throw, throwThe, MonadExceptOf.throw,
    EStateM.throw], by simp⟩

theorem bind {x : Serve α} {f : α → Serve β} (hx : Emits x P) (hf : ∀ a, Emits (f a) P) :
    Emits (x >>= f) P := by
  intro c
  obtain ⟨t₁, h₁, p₁⟩ := hx c
  rw [run_bind]
  cases hxc : x.run c with
  | ok a c' =>
      rw [hxc, endConn_ok] at h₁
      obtain ⟨t₂, h₂, p₂⟩ := hf a c'
      refine ⟨t₁ ++ t₂, by rw [h₂, h₁, List.append_assoc], fun e he => ?_⟩
      rcases List.mem_append.mp he with he | he
      exacts [p₁ e he, p₂ e he]
  | error rc c' =>
      rw [hxc] at h₁
      exact ⟨t₁, h₁, p₁⟩

theorem ite {c : Prop} [Decidable c] {x y : Serve α} (hx : Emits x P) (hy : Emits y P) :
    Emits (if c then x else y) P := by
  split
  exacts [hx, hy]

theorem forM {γ : Type} {l : List γ} {f : γ → Serve Unit} (h : ∀ a ∈ l, Emits (f a) P) :
    Emits (l.forM f) P := by
  induction l with
  | nil => exact pure _
  | cons a l ih =>
      rw [List.forM_cons']
      exact bind (h a (List.mem_cons_self a l)) fun _ => ih fun b hb => h b (List.mem_cons_of_mem a hb)

theorem cond {c : Prop} [Decidable c] {x y : Serve α} (hx : c → Emits x P) (hy : ¬ c → Emits y P) :
    Emits (if c then x else y) P := by
  split
  exacts [hx ‹_›, hy ‹_›]

theorem mono {x : Serve α} {Q : Event → Prop} (h : Emits x P) (hPQ : ∀ e, P e → Q e) :
    Emits x Q := fun c =>
  let ⟨t, ht, p⟩ := h c
  ⟨t, ht, fun e he => hPQ e (p e he)⟩

theorem modify {f : Conn → Conn} (hf : ∀ c, (f c).out = c.out) :
    Emits (modify f : Serve Unit) P :=
  fun c => ⟨[], by simpa using hf c, by simp⟩

theorem get : Emits (MonadState.get : Serve Conn) P :=
  fun c => ⟨[], by simp [EStateM.run, MonadState.get, getThe, MonadStateOf.get, EStateM.get], by simp⟩

end Emits

theorem emit_emits {P : Event → Prop} {e : Event} (h : P e) : Emits (emit e) P :=
  fun c => ⟨[e], rfl, by simpa using h⟩

@[simp] theorem emit_run (e : Event) (c : Conn) :
    (emit e).run c = .ok () { c with out := c.out ++ [e] } := rfl

/-- A response carries the `Content-Type` set first: a later one is dropped. -/
@[simp] theorem jbrHttpSend_run (status : Nat) (ct : Option Bytes) (body : Bytes) (c : Conn) :
    (jbrHttpSend status ct body).run c =
      .ok () { c with ctype := c.ctype.or ct, out := c.out ++ [.send status (c.ctype.or ct) body] } := by
  cases ct <;> simp [jbrHttpSend, jbrHttpSetContentType]

theorem jbrHttpSend_emits {P : Event → Prop} {status : Nat} {ct : Option Bytes} {body : Bytes}
    (h : ∀ t, P (.send status t body)) : Emits (jbrHttpSend status ct body) P :=
  fun c => ⟨[.send status (c.ctype.or ct) body], by simp, by simpa using h _⟩

@[simp] theorem httpSendError_run (status : Nat) (c : Conn) :
    (httpSendError status).run c = .ok () { c with out := c.out ++ [.sendError status] } := rfl

theorem ioOk_run (c : Conn) :
    ioOk.run c =
      match c.io with
      | [] => .ok true c
      | ok :: rest => .ok ok { c with io := rest } := by
  obtain ⟨out, io, ds, wb, ex, ct⟩ := c
  cases io <;> rfl

theorem ioOk_bind_run {α : Type} (f : Bool → Serve α) (c : Conn) :
    (ioOk >>= f).run c =
      match c.io with
      | [] => (f true).run c
      | ok :: rest => (f ok).run { c with io := rest } := by
  obtain ⟨out, io, ds, wb, ex, ct⟩ := c
  cases io <;> rfl

theorem ioOk_emits {P : Event → Prop} : Emits ioOk P := by
  intro c
  rw [ioOk_run]
  refine ⟨[], ?_, by simp⟩
  split <;> simp

theorem attempt_emits {P : Event → Prop} (rc : Iwrc) : Emits (attempt rc) P :=
  Emits.bind ioOk_emits fun _ => Emits.ite (Emits.pure ()) (Emits.throw rc)

theorem writeOut_emits {P : Event → Prop} (K : Codes) {e : Event} (h : P e) :
    Emits (writeOut K e) P :=
  Emits.bind (attempt_emits _) fun _ => emit_emits h

/-! ## Hoare triples over a connection -/

/-- `Hoare P x Q E`: from `P`, `x` ends normally in `Q` of its result, or early in `E`. -/
def Hoare {α : Type} (P : Conn → Prop) (x : Serve α) (Q : α → Conn → Prop)
    (E : Conn → Prop) : Prop :=
  ∀ c, P c → match x.run c with
    | .ok a c' => Q a c'
    | .error _ c' => E c'

namespace Hoare

variable {α β : Type} {P R : Conn → Prop} {Q : α → Conn → Prop} {E : Conn → Prop}

theorem pure {a : α} (h : ∀ c, P c → Q a c) : Hoare P (Pure.pure a) Q E := h

theorem throw (rc : Iwrc) (h : ∀ c, P c → E c) : Hoare P (MonadExcept.throw rc : Serve α) Q E := h

theorem bind {x : Serve β} {f : β → Serve α} {S : β → Conn → Prop} (hx : Hoare P x S E)
    (hf : ∀ b, Hoare (S b) (f b) Q E) : Hoare P (x >>= f) Q E := by
  intro c hc
  have h := hx c hc
  rw [run_bind]
  split at h <;> rename_i heq <;> rw [heq]
  exacts [hf _ _ h, h]

theorem cond {p : Prop} [Decidable p] {x y : Serve α} (hx : p → Hoare P x Q E)
    (hy : ¬ p → Hoare P y Q E) : Hoare P (if p then x else y) Q E := by
  split
  exacts [hx ‹_›, hy ‹_›]

theorem conseq {P' : Conn → Prop} {Q' : α → Conn → Prop} {E' : Conn → Prop} {x : Serve α}
    (h : Hoare P x Q E) (hP : ∀ c, P' c → P c) (hQ : ∀ a c, Q a c → Q' a c)
    (hE : ∀ c, E c → E' c) : Hoare P' x Q' E' := by
  intro c hc
  have h := h c (hP c hc)
  split at h
  exacts [hQ _ _ h, hE _ h]

theorem get : Hoare P (MonadState.get : Serve Conn) (fun s c => P c ∧ c = s) E :=
  fun _ hc => ⟨hc, rfl⟩

theorem get_bind {f : Conn → Serve α} (h : ∀ s, Hoare P (f s) Q E) :
    Hoare P (MonadState.get >>= f) Q E :=
  fun c hc => h c c hc

theorem modify {Q : Unit → Conn → Prop} {f : Conn → Conn} (h : ∀ c, P c → Q () (f c)) :
    Hoare P (modify f : Serve Unit) Q E := h

theorem forM {γ : Type} {l : List γ} {f : γ → Serve Unit}
    (h : ∀ a ∈ l, Hoare P (f a) (fun _ => P) E) : Hoare P (l.forM f) (fun _ => P) E := by
  induction l with
  | nil => exact pure fun _ hc => hc
  | cons a l ih =>
      rw [List.forM_cons']
      exact bind (h a (List.mem_cons_self a l)) fun _ =>
        ih fun b hb => h b (List.mem_cons_of_mem a hb)

end Hoare

section Calls

variable {P : Conn → Prop} {E : Conn → Prop}

def IoStable (P : Conn → Prop) : Prop := ∀ c io, P c → P { c with io := io }

theorem ioOk_hoare (hP : IoStable P) : Hoare P ioOk (fun _ => P) E := by
  intro c hc
  rw [ioOk_run]
  cases c.io with
  | nil => exact hc
  | cons _ rest => exact hP c rest hc

theorem attempt_hoare (hP : IoStable P) (rc : Iwrc) : Hoare P (attempt rc) (fun _ => P) P :=
  Hoare.bind (ioOk_hoare hP) fun _ =>
    Hoare.cond (fun _ => Hoare.pure fun _ hc => hc) fun _ => Hoare.throw rc fun _ hc => hc

theorem emit_hoare {Q : Unit → Conn → Prop} {e : Event}
    (h : ∀ c, P c → Q () { c with out := c.out ++ [e] }) : Hoare P (emit e) Q E := h

theorem jbrHttpSend_hoare {Q : Unit → Conn → Prop} {st : Nat} {ct : Option Bytes} {body : Bytes}
    (h : ∀ c, P c →
      Q () { c with ctype := c.ctype.or ct, out := c.out ++ [.send st (c.ctype.or ct) body] }) :
    Hoare P (jbrHttpSend st ct body) Q E := fun c hc => by
  rw [jbrHttpSend_run]
  exact h c hc

theorem writeOut_hoare {Q : Unit → Conn → Prop} (K : Codes) {e : Event} (hP : IoStable P)
    (hE : ∀ c, P c → E c) (h : ∀ c, P c → Q () { c with out := c.out ++ [e] }) :
    Hoare P (writeOut K e) Q E :=
  Hoare.bind ((attempt_hoare hP _).conseq (fun _ hc => hc) (fun _ _ hc => hc) hE) fun _ =>
    emit_hoare h

end Calls

end Jbr.Http
