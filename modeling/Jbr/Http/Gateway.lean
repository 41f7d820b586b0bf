import Jbr.Http.Query

/-!
# The request and upgrade entry points

`_jbr_on_http_request` parses the request line with `_jbr_fill_ctx` (answering
`400` when it fails), applies the token gate, copies the collection name into
`cname` and dispatches on the method.  `_jbr_on_http_upgrade` admits a WebSocket
upgrade on `/` through its own copy of the token gate.  Both gates are written
here as functions from the configuration and the `X-Access-Token` header to the
admission they decide; the handlers run in `Serve`.
-/

namespace Jbr.Http

open Jbr.Foundation

def jbrFillCtxResult (L : Limits) (req : HttpRequest) : Option JbrCtx :=
  (result (jbrFillCtx L req.method req.path)).bind id

/-- The token gate of `_jbr_on_http_request`. -/
def httpTokenGate (cfg : HttpConfig) (h : Header) (ctx : JbrCtx) : Except Nat JbrCtx :=
  match cfg.accessToken with
  | none => .ok ctx
  | some tok =>
      match h with
      | .absent =>
          if cfg.readAnon ∧ (ctx.method = .get ∨ ctx.method = .head ∨
              (ctx.method = .post ∧ ctx.collection = none)) then
            .ok { ctx with readAnon := true }
          else .error 401
      | .repeated => .error 400
      | .single v => if v.length ≠ tok.length ∨ v ≠ tok then .error 403 else .ok ctx

section Gateway

variable (L : Limits) (B : Backend) (K : Codes)

/-- `switch (rctx.method)` of `process:`: the handler of the method. -/
def jbrHandler (req : HttpRequest) (ctx : JbrCtx) : Serve Unit :=
  match ctx.method with
  | .get | .head => jbrOnGet B K req ctx
  | .post => jbrOnPost B req ctx
  | .put => jbrOnPut B req ctx
  | .patch => jbrOnPatch B K req ctx
  | .delete => jbrOnDelete B K ctx

/-- `process:` of `_jbr_on_http_request` -/
def jbrProcess (req : HttpRequest) (ctx : JbrCtx) : Serve Unit :=
  match ctx.collection with
  | some coll => jbrHandler B K req { ctx with collection := some (cstr coll) }
  | none => if ctx.method = .post then jbrOnQuery B K req ctx else httpSendError 400

/-- `_jbr_on_http_request (req)` -/
def jbrOnHttpRequest (cfg : HttpConfig) (req : HttpRequest) : Serve Unit :=
  match jbrFillCtxResult L req with
  | none => httpSendError 400
  | some ctx =>
      match httpTokenGate cfg req.accessToken ctx with
      | .error status => httpSendError status
      | .ok ctx => jbrProcess B K req ctx

end Gateway

/-- The token gate of `_jbr_on_http_upgrade`. -/
def upgradeTokenGate (cfg : HttpConfig) (h : Header) : Except Nat Bool :=
  match cfg.accessToken with
  | none => .ok false
  | some tok =>
      if h = .absent ∧ ¬ cfg.readAnon then .error 401 else
      let readAnon := h = .absent
      match h with
      | .single v => if v.length ≠ tok.length ∨ v ≠ tok then .error 403 else .ok readAnon
      | _ => .error 400

/-- `_jbr_on_http_upgrade (req, requested_protocol, len)` -/
def jbrOnHttpUpgrade (B : Backend) (K : Codes) (cfg : HttpConfig) (req : HttpRequest)
    (protocol : Bytes) : Serve Unit := do
  let path := req.path.getD []
  if (path.length ≠ 1 ∨ path.getD 0 0 ≠ 47) ∨ (protocol.length ≠ 9 ∨ protocol.getD 1 0 ≠ 101) then
    httpSendError 400
  else if !(← ioOk) then httpSendError 500
  else
    match upgradeTokenGate cfg req.accessToken with
    | .error status => httpSendError status
    | .ok readAnon =>
        if ← ioOk then emit (.upgrade readAnon) else jbrRcReport B 500 K.jbrErrorWsUpgrade

/-! ## The gate keeps the database closed -/

def Event.isDbCall : Event → Bool
  | .get .. => true
  | .put .. => true
  | .putNew .. => true
  | .patch .. => true
  | .remove .. => true
  | .jqlCreate _ => true
  | .exec .. => true
  | _ => false

def AnonMethod (ctx : JbrCtx) : Prop :=
  ctx.method = .get ∨ ctx.method = .head ∨ (ctx.method = .post ∧ ctx.collection = none)

theorem jbrFillCtxResult_eq (L : Limits) (req : HttpRequest) :
    jbrFillCtxResult L req = fillCtx L req.method req.path := by
  simp [jbrFillCtxResult, (jbrFillCtx_yields req.method req.path).result_eq]

theorem httpTokenGate_ok {cfg : HttpConfig} {h : Header} {ctx ctx' : JbrCtx}
    (hg : httpTokenGate cfg h ctx = .ok ctx') :
    (cfg.accessToken = none ∧ ctx' = ctx) ∨
    (∃ tok, cfg.accessToken = some tok ∧ h = .single tok ∧ ctx' = ctx) ∨
    (h = .absent ∧ cfg.readAnon = true ∧ AnonMethod ctx ∧ ctx' = { ctx with readAnon := true }) := by
  unfold httpTokenGate at hg
  split at hg
  · exact .inl ⟨‹_›, (Except.ok.inj hg).symm⟩
  · split at hg
    · split_ifs at hg with hc
      exact .inr (.inr ⟨rfl, by simpa using hc.1, hc.2, (Except.ok.inj hg).symm⟩)
    · cases hg
    · split_ifs at hg with hv
      simp only [not_or, not_not] at hv
      exact .inr (.inl ⟨_, ‹_›, by rw [hv.2], (Except.ok.inj hg).symm⟩)

section Effects

variable (L : Limits) (B : Backend) (K : Codes)

theorem jbrOnGet_emits (req : HttpRequest) (ctx : JbrCtx) :
    Emits (jbrOnGet B K req ctx) (fun e => e.isMutation = false ∧ ∀ q l, e ≠ .exec q l) := by
  have hs : ∀ st ct body, Emits (jbrHttpSend st ct body)
      (fun e => e.isMutation = false ∧ ∀ q l, e ≠ .exec q l) :=
    fun _ _ _ => jbrHttpSend_emits fun _ => ⟨rfl, fun _ _ => nofun⟩
  unfold jbrOnGet
  refine Emits.bind (emit_emits ⟨rfl, fun _ _ => nofun⟩) fun _ => ?_
  exact Emits.ite (hs _ _ _) (Emits.ite (hs _ _ _) (Emits.ite (Emits.ite (hs _ _ _) (hs _ _ _))
    (Emits.bind ioOk_emits fun _ => Emits.ite (Emits.ite (hs _ _ _) (hs _ _ _)) (hs _ _ _))))

theorem mutators_emit (req : HttpRequest) (ctx : JbrCtx) :
    ∀ x ∈ [jbrOnPost B req ctx, jbrOnPut B req ctx, jbrOnPatch B K req ctx, jbrOnDelete B K ctx],
      Emits x (fun e => (ctx.readAnon = true → e.isMutation = false) ∧ ∀ q l, e ≠ .exec q l) := by
  -- responses pass, and a change of the database comes only after the `read_anon` test
  have hs : ∀ st ct body, Emits (jbrHttpSend st ct body)
      (fun e => (ctx.readAnon = true → e.isMutation = false) ∧ ∀ q l, e ≠ .exec q l) :=
    fun _ _ _ => jbrHttpSend_emits fun _ => ⟨fun _ => rfl, fun _ _ => nofun⟩
  have hm : ∀ e : Event, ¬ ctx.readAnon = true → (∀ q l, e ≠ .exec q l) →
      (ctx.readAnon = true → e.isMutation = false) ∧ ∀ q l, e ≠ .exec q l :=
    fun _ ha hx => ⟨fun h => absurd h ha, hx⟩
  simp only [List.mem_cons, List.mem_singleton, List.not_mem_nil, or_false]
  rintro x (rfl | rfl | rfl | rfl)
  · unfold jbrOnPost
    split_ifs with ha
    · exact hs _ _ _
    · exact hs _ _ _
    · split
      split_ifs
      · exact hs _ _ _
      · refine Emits.bind (emit_emits (hm _ ha fun _ _ => nofun)) fun _ => ?_
        split
        split_ifs <;> exact hs _ _ _
  · unfold jbrOnPut
    split_ifs with ha
    · exact hs _ _ _
    · exact hs _ _ _
    · split
      split_ifs
      · exact hs _ _ _
      · exact Emits.bind (emit_emits (hm _ ha fun _ _ => nofun)) fun _ =>
          Emits.ite (hs _ _ _) (hs _ _ _)
  · unfold jbrOnPatch
    split_ifs with ha
    · exact hs _ _ _
    · exact hs _ _ _
    · refine Emits.bind (emit_emits (hm _ ha fun _ _ => nofun)) fun _ => ?_
      refine Emits.bind (Emits.ite (hs _ _ _) (Emits.pure ())) fun _ => ?_
      exact Emits.ite (hs _ _ _) (hs _ _ _)
  · unfold jbrOnDelete
    split_ifs with ha
    · exact hs _ _ _
    · refine Emits.bind (emit_emits (hm _ ha fun _ _ => nofun)) fun _ => ?_
      exact Emits.ite (hs _ _ _) (Emits.ite (hs _ _ _) (hs _ _ _))

/-- The handler that `process:` picks answers exactly once, unless it is
`_jbr_on_patch` and `ejdb_patch` fails with a parse or patch error. -/
theorem jbrHandler_repliesOnce (req : HttpRequest) (ctx : JbrCtx)
    (h : ctx.method = .patch → patchCode B req ctx ∉ K.jblPatchErrors) :
    RepliesOnce (jbrHandler B K req ctx) := by
  unfold jbrHandler
  cases hm : ctx.method with
  | get | head => exact jbrOnGet_repliesOnce B K req ctx
  | post => exact jbrOnPost_repliesOnce B req ctx
  | put => exact jbrOnPut_repliesOnce B req ctx
  | patch => exact jbrOnPatch_repliesOnce B K req ctx (h hm)
  | delete => exact jbrOnDelete_repliesOnce B K ctx

theorem jbrHandler_repliesOnce_sample :
    RepliesOnce (jbrHandler Backend.ok Codes.sample ⟨lit "GET", some (lit "/c/1"), .absent, .absent, [], 0⟩
      ⟨.get, some (lit "c"), 1, false⟩) :=
  jbrHandler_repliesOnce Backend.ok Codes.sample ⟨lit "GET", some (lit "/c/1"), .absent, .absent, [], 0⟩
    ⟨.get, some (lit "c"), 1, false⟩ (fun h => nomatch h)

theorem jbrProcess_emits (req : HttpRequest) (ctx : JbrCtx) :
    Emits (jbrProcess B K req ctx) (fun e => (ctx.readAnon = true → e.isMutation = false) ∧
      ∀ q l, e = .exec q l → ¬ (ctx.readAnon ∧ B.jqlHasApply q)) := by
  unfold jbrProcess
  split
  · rename_i coll _
    have hm := mutators_emit B K req { ctx with collection := some (cstr coll) }
    unfold jbrHandler
    split
    all_goals first
      | exact (jbrOnGet_emits B K req _).mono fun e he =>
          ⟨fun _ => he.1, fun q l h => absurd h (he.2 q l)⟩
      | exact (hm _ (by simp)).mono fun e he => ⟨he.1, fun q l h => absurd h (he.2 q l)⟩
  · exact Emits.ite ((jbrOnQuery_emits B K req ctx).mono fun e he => ⟨fun _ => he.1, he.2⟩)
      (emit_emits (by simp [Event.isMutation]))

/-- The gate of `_jbr_on_http_request` with a token `T` configured: the database is
reached only with the token or anonymously by a `GET`, `HEAD` or query `POST`; an
anonymous request changes nothing and runs no query with an `apply` clause. -/
theorem jbrOnHttpRequest_tokenGate (cfg : HttpConfig) (req : HttpRequest) {T : Bytes}
    (hT : cfg.accessToken = some T) :
    Emits (jbrOnHttpRequest L B K cfg req) (fun e => e.isDbCall = true →
      req.accessToken = .single T ∨ (req.accessToken = .absent ∧ cfg.readAnon = true ∧
        ∃ ctx, fillCtx L req.method req.path = some ctx ∧ AnonMethod ctx)) ∧
    (req.accessToken = .absent → Emits (jbrOnHttpRequest L B K cfg req)
      (fun e => e.isMutation = false ∧ ∀ q l, e = .exec q l → B.jqlHasApply q = false)) ∧
    (∀ ctx c, req.accessToken = .absent → cfg.readAnon = true →
      fillCtx L req.method req.path = some ctx → ctx.method = .post → ctx.collection = none →
      0 < req.body.length → B.jqlCreate (cstr req.body) = 0 → B.jqlHasApply (cstr req.body) = true →
      (endConn ((jbrOnHttpRequest L B K cfg req).run c)).out =
        c.out ++ [.jqlCreate (cstr req.body), .send 403 c.ctype []]) := by
  unfold jbrOnHttpRequest
  rw [jbrFillCtxResult_eq]
  refine ⟨?_, ?_, fun ctx c habs hanon hfill hpost hcoll hbody hq happ => ?_⟩
  · split
    · exact emit_emits (by simp [Event.isDbCall])
    · rename_i ctx hfill
      split
      · exact emit_emits (by simp [Event.isDbCall])
      · rename_i ctx' hg
        refine (jbrProcess_emits B K req ctx').mono fun e _ _ => ?_
        rcases httpTokenGate_ok hg with ⟨h, -⟩ | ⟨tok, h, hh, -⟩ | ⟨hh, hr, ha, -⟩
        · simp [hT] at h
        · rw [hT] at h
          cases h
          exact .inl hh
        · exact .inr ⟨hh, hr, ctx, hfill, ha⟩
  · intro habs
    split
    · exact emit_emits (by simp [Event.isMutation])
    · split
      · exact emit_emits (by simp [Event.isMutation])
      · rename_i ctx _ ctx' hg
        rcases httpTokenGate_ok hg with ⟨h, -⟩ | ⟨tok, -, hh, -⟩ | ⟨-, -, -, rfl⟩
        · simp [hT] at h
        · rw [habs] at hh
          cases hh
        · refine (jbrProcess_emits B K req _).mono fun e he => ⟨he.1 rfl, fun q l hq => ?_⟩
          simpa using he.2 q l hq
  · simp [hfill, httpTokenGate, hT, habs, hanon, hpost, hcoll, AnonMethod, jbrProcess, jbrOnQuery,
      show ¬ req.body.length < 1 by omega, hq, happ, jbrHttpErrorSend]

end Effects

theorem jbrOnHttpRequest_tokenGate_sample :
    (endConn ((jbrOnHttpRequest Limits.sample { Backend.ok with jqlHasApply := fun _ => true }
      Codes.sample ⟨some (lit "t"), true, false⟩
      ⟨lit "POST", some [47], .absent, .absent, lit "q", 0⟩).run (Conn.init []))).out =
      [.jqlCreate (lit "q"), .send 403 none []] :=
  (jbrOnHttpRequest_tokenGate Limits.sample { Backend.ok with jqlHasApply := fun _ => true }
    Codes.sample ⟨some (lit "t"), true, false⟩ ⟨lit "POST", some [47], .absent, .absent, lit "q", 0⟩
    rfl).2.2 ⟨.post, none, 0, false⟩ (Conn.init []) rfl rfl rfl rfl rfl (by decide) rfl rfl

/-! ## The two gates -/

/-- The upgrade gate decides as the request gate does for a `GET`, except for a
request without the header while `read_anon` is enabled. -/
theorem upgradeTokenGate_eq_httpTokenGate (cfg : HttpConfig) (h : Header) (ctx : JbrCtx)
    (hget : ctx.method = .get) (hctx : ctx.readAnon = false)
    (hne : ¬ (h = .absent ∧ cfg.readAnon = true)) :
    upgradeTokenGate cfg h = (httpTokenGate cfg h ctx).map (·.readAnon) := by
  unfold upgradeTokenGate httpTokenGate
  cases cfg.accessToken with
  | none => simp [Except.map, hctx]
  | some tok =>
      cases h with
      | absent => simp_all [Except.map]
      | repeated => simp [Except.map]
      | single v =>
          by_cases hv : v.length ≠ tok.length ∨ v ≠ tok <;> simp [hv, Except.map, hctx]

theorem upgradeTokenGate_eq_httpTokenGate_sample :
    upgradeTokenGate ⟨some (lit "t"), false, false⟩ (.single (lit "t")) =
      (httpTokenGate ⟨some (lit "t"), false, false⟩ (.single (lit "t")) ⟨.get, none, 0, false⟩).map
        (·.readAnon) :=
  upgradeTokenGate_eq_httpTokenGate ⟨some (lit "t"), false, false⟩ (.single (lit "t"))
    ⟨.get, none, 0, false⟩ rfl rfl (by simp)

/-- With a token configured and `read_anon` enabled, the request gate lets a `GET`
without the header in as anonymous, while `_jbr_on_http_upgrade` answers `400`. -/
theorem jbrOnHttpUpgrade_refuses_anonymous (B : Backend) (K : Codes) (cfg : HttpConfig)
    (req : HttpRequest) (ctx : JbrCtx) {T : Bytes} (hT : cfg.accessToken = some T)
    (hanon : cfg.readAnon = true) (habs : req.accessToken = .absent) (hget : ctx.method = .get)
    (hpath : req.path = some [47]) (c : Conn) (hio : c.io = []) :
    httpTokenGate cfg req.accessToken ctx = .ok { ctx with readAnon := true } ∧
      upgradeTokenGate cfg req.accessToken = .error 400 ∧
      (endConn ((jbrOnHttpUpgrade B K cfg req (lit "websocket")).run c)).out =
        c.out ++ [.sendError 400] := by
  have hu : upgradeTokenGate cfg req.accessToken = .error 400 := by
    simp [upgradeTokenGate, hT, habs, hanon]
  refine ⟨by simp [httpTokenGate, hT, habs, hanon, hget], hu, ?_⟩
  simp [jbrOnHttpUpgrade, hpath, ioOk_run, hio, hu, lit, show Nat.toUInt8 101 = 101 from rfl]

theorem jbrOnHttpUpgrade_refuses_anonymous_sample :
    (endConn ((jbrOnHttpUpgrade Backend.ok Codes.sample ⟨some (lit "t"), true, false⟩
      ⟨lit "GET", some [47], .absent, .absent, [], 0⟩ (lit "websocket")).run (Conn.init []))).out =
      [.sendError 400] :=
  (jbrOnHttpUpgrade_refuses_anonymous Backend.ok Codes.sample ⟨some (lit "t"), true, false⟩
    ⟨lit "GET", some [47], .absent, .absent, [], 0⟩ ⟨.get, none, 0, false⟩ rfl rfl rfl rfl rfl
    (Conn.init []) rfl).2.2

end Jbr.Http
