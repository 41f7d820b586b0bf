import Jbr.Http.Route

/-!
# What a REST client sends

The comment at the top of `jbr.c` lists the calls of the REST interface:
`POST /` with a query, `POST /{collection}` with a new document, and `GET`,
`HEAD`, `PUT`, `PATCH` or `DELETE` on `/{collection}/{id}`.  `RestCall.method`
and `/` followed by `RestCall.path` are the request line a client sends for a
call, the id printed in decimal.
With no token configured, `_jbr_on_http_request` runs, for every call within the
limits of `_jbr_fill_ctx`, the handler the call names.
-/

namespace Jbr.Http

open Jbr.Foundation

def methodName : Method → Bytes
  | .get => lit "GET"
  | .put => lit "PUT"
  | .patch => lit "PATCH"
  | .delete => lit "DELETE"
  | .post => lit "POST"
  | .head => lit "HEAD"

theorem methodOf_methodName (m : Method) : methodOf (methodName m) = some m := by
  cases m <;> decide

inductive RestCall where
  | query
  | insert (coll : Bytes)
  | document (m : Method) (coll : Bytes) (id : Int)
  deriving DecidableEq, Repr

def RestCall.method : RestCall → Method
  | .query | .insert _ => .post
  | .document m _ _ => m

def RestCall.path : RestCall → Bytes
  | .query => []
  | .insert coll => coll
  | .document _ coll id => coll ++ 47 :: decimal id

def RestCall.route : RestCall → Route
  | .query => .query
  | .insert coll => .handler .post coll 0
  | .document m coll id => .handler m coll id

def RestCall.sendable (L : Limits) : RestCall → Bool
  | .query => true
  | .insert coll => !coll.isEmpty && coll.all segByte && coll.length ≤ L.collectionNameMaxLen
  | .document m coll id =>
      m != .post && coll.all segByte && coll.length ≤ L.collectionNameMaxLen && 1 ≤ id &&
        id ≤ llongMax

theorem idNumeral_decimal {id : Int} (h1 : 1 ≤ id) (h2 : id ≤ llongMax) :
    idNumeral (decimal id) = some id := by
  obtain ⟨hne, hd, hv⟩ := natDigits_spec id.toNat
  obtain ⟨b, l, hbl⟩ := List.exists_cons_of_ne_nil hne
  have hb := hd b (hbl ▸ List.mem_cons_self b l)
  have h43 : b ≠ 43 := fun h => absurd (h ▸ hb) (by decide)
  have htw := List.takeWhile_eq_self_iff.mpr hd
  rw [hbl] at htw hv
  rw [decimal_of_pos h1, hbl]
  simp [idNumeral, isspace_of_isdigit hb, h43, htw, hv]
  omega

theorem restRoute_path (L : Limits) (hL : 20 ≤ L.numBufSize) (call : RestCall)
    (h : call.sendable L = true) : restRoute L call.method call.path = call.route := by
  cases call with
  | query => rfl
  | insert coll =>
      simp only [RestCall.sendable, Bool.and_eq_true, Bool.not_eq_true', List.isEmpty_eq_false,
        List.all_eq_true, decide_eq_true_eq] at h
      obtain ⟨⟨hne, hseg⟩, hlen⟩ := h
      simp [restRoute, RestCall.method, RestCall.path, RestCall.route, hne, hlen,
        List.takeWhile_eq_self_iff.mpr hseg, List.dropWhile_eq_nil_iff.mpr hseg]
  | document m coll id =>
      simp only [RestCall.sendable, Bool.and_eq_true, bne_iff_ne, ne_eq, List.all_eq_true,
        decide_eq_true_eq] at h
      obtain ⟨⟨⟨⟨hm, hseg⟩, hlen⟩, h1⟩, h2⟩ := h
      have hd : (decimal id).length < L.numBufSize := by
        rw [decimal_of_pos h1]
        have := natDigits_length (n := id.toNat) (e := 19) (by unfold llongMax at h2; omega) (by decide)
        omega
      have hne : decimal id ≠ [] := by rw [decimal_of_pos h1]; exact (natDigits_spec _).1
      have h47 : segByte 47 = false := rfl
      simp [restRoute, RestCall.method, RestCall.path, RestCall.route,
        List.takeWhile_append_of_pos hseg, List.dropWhile_append_of_pos hseg, h47, hlen, hne,
        not_le.mpr hd, hm, idNumeral_decimal h1 h2]

/-- With no token configured, the request line a client sends for a call within the
limits of `_jbr_fill_ctx` makes `_jbr_on_http_request` run what the call names: the
query path, or the method's handler on the collection and the id. -/
theorem jbrOnHttpRequest_call (L : Limits) (B : Backend) (K : Codes) (cfg : HttpConfig)
    (hcfg : cfg.accessToken = none) (hL : 20 ≤ L.numBufSize) (call : RestCall)
    (h : call.sendable L = true) (req : HttpRequest) (hm : req.method = methodName call.method)
    (hp : req.path = some (47 :: call.path)) (hlen : call.path.length < 2 ^ 31 - 1) :
    jbrOnHttpRequest L B K cfg req = dispatch B K req call.route := by
  rw [jbrOnHttpRequest_dispatch L B K cfg hcfg req, ← restRoute_path L hL call h,
    ← fillPath_route L _ _ hlen]
  simp [fillCtx, hm, hp, methodOf_methodName]

theorem jbrOnHttpRequest_call_get :
    jbrOnHttpRequest Limits.sample Backend.ok Codes.sample ⟨none, false, false⟩
        ⟨lit "GET", some (lit "/c/1"), .absent, .absent, [], 0⟩ =
      dispatch Backend.ok Codes.sample ⟨lit "GET", some (lit "/c/1"), .absent, .absent, [], 0⟩
        (.handler .get (lit "c") 1) :=
  jbrOnHttpRequest_call Limits.sample Backend.ok Codes.sample ⟨none, false, false⟩ rfl (by decide)
    (.document .get (lit "c") 1) (by decide) ⟨lit "GET", some (lit "/c/1"), .absent, .absent, [], 0⟩
    rfl (by decide) (by decide)

/-- A path that ends with `/` after the collection reaches the handler of every
method with id 0, `POST` included: `_jbr_fill_ctx` takes `goto finish` before the
checks `rctx->id < 1` and `rctx->method == JBR_POST`. -/
theorem jbrOnHttpRequest_emptyId (L : Limits) (B : Backend) (K : Codes) (cfg : HttpConfig)
    (hcfg : cfg.accessToken = none) (m : Method) (c : Bytes) (hseg : ∀ b ∈ c, segByte b = true)
    (hlen : c.length ≤ L.collectionNameMaxLen) (hl : c.length + 1 < 2 ^ 31 - 1) (req : HttpRequest)
    (hm : req.method = methodName m) (hp : req.path = some (47 :: (c ++ [47]))) :
    jbrOnHttpRequest L B K cfg req = dispatch B K req (.handler m c 0) := by
  have h47 : segByte 47 = false := rfl
  have hr : restRoute L m (c ++ [47]) = .handler m c 0 := by
    simp [restRoute, List.takeWhile_append_of_pos hseg, List.dropWhile_append_of_pos hseg, h47,
      not_lt.mpr hlen]
  rw [jbrOnHttpRequest_dispatch L B K cfg hcfg req, ← hr, ← fillPath_route L _ _ (by simpa using hl)]
  simp [fillCtx, hm, hp, methodOf_methodName]

theorem jbrOnHttpRequest_emptyId_get :
    jbrOnHttpRequest Limits.sample Backend.ok Codes.sample ⟨none, false, false⟩
        ⟨lit "GET", some (lit "/c/"), .absent, .absent, [], 0⟩ =
      dispatch Backend.ok Codes.sample ⟨lit "GET", some (lit "/c/"), .absent, .absent, [], 0⟩
        (.handler .get (lit "c") 0) :=
  jbrOnHttpRequest_emptyId Limits.sample Backend.ok Codes.sample ⟨none, false, false⟩ rfl .get
    (lit "c") (by decide) (by decide) (by decide) _ rfl (by decide)

end Jbr.Http
