import Jbr.Http.Gateway
import Jbr.Ws.Frame

/-!
# Where the two parsers touch memory

The request line and the WebSocket frames are the two places where `jbr.c` walks
bytes that a client chose.  `_jbr_on_http_request` runs `_jbr_fill_ctx` on the
path and, for a request the token gate lets through, copies the collection into
`cname[EJDB_COLLECTION_NAME_MAX_LEN + 1]`; `_jbr_ws_on_message` scans the frame in
place and writes its terminator into it.  This module collects the bounds of both:
the path is read up to and including its terminating NUL, the frame only below
`(int) msg.len`, and every stack buffer only within its size.
-/

namespace Jbr.Bounds

open Jbr.Foundation Jbr.Http Jbr.Ws

/-- `_jbr_fill_ctx` and the copy into `cname` of `_jbr_on_http_request`. -/
def jbrRequestMemory (L : Limits) (cfg : HttpConfig) (req : HttpRequest) : Mem Unit := do
  match ← jbrFillCtx L req.method req.path with
  | none => pure ()
  | some ctx =>
      match httpTokenGate cfg req.accessToken ctx with
      | .error _ => pure ()
      | .ok ctx => jbrCopyCname ctx

def requestAccesses (L : Limits) (cfg : HttpConfig) (req : HttpRequest) : List Access :=
  accesses (jbrRequestMemory L cfg req)

/-! ## The request line -/

theorem httpTokenGate_collection {cfg : HttpConfig} {h : Header} {ctx ctx' : JbrCtx}
    (hg : httpTokenGate cfg h ctx = .ok ctx') : ctx'.collection = ctx.collection := by
  rcases httpTokenGate_ok hg with ⟨-, rfl⟩ | ⟨-, -, -, rfl⟩ | ⟨-, -, -, rfl⟩ <;> rfl

theorem jbrCopyCname_congr {ctx ctx' : JbrCtx} (h : ctx'.collection = ctx.collection) :
    jbrCopyCname ctx' = jbrCopyCname ctx := by
  unfold jbrCopyCname
  rw [h]

theorem jbrRequestMemory_yields (L : Limits) (cfg : HttpConfig) (req : HttpRequest) :
    Yields (jbrRequestMemory L cfg req) (some ()) (InPath L (req.path.getD []).length) := by
  unfold jbrRequestMemory
  refine Yields.bind (jbrFillCtx_yields req.method req.path) ?_
  cases hf : fillCtx L req.method req.path with
  | none => exact Yields.pure ()
  | some ctx =>
      dsimp only
      split
      · exact Yields.pure ()
      · rw [jbrCopyCname_congr (httpTokenGate_collection ‹_›)]
        exact jbrCopyCname_yields hf

/-- The bounds of both parsers, for every request and every text frame:
`_jbr_fill_ctx` and the copy into `cname` read the path at offsets up to its
length, where its NUL lies, and write `nbuf` and `cname` within their sizes;
`_jbr_ws_on_message` reads below `(int) msg.len`, writes `keybuf`, `cnamebuf` and
`nbuf` within their sizes and the frame only at `(int) msg.len`, which is
`msg.len` on a frame shorter than `2^31` bytes. -/
theorem parsers_within_bounds (L : Limits) (cfg : HttpConfig) (req : HttpRequest) (msg : Bytes) :
    (∀ a ∈ requestAccesses L cfg req, InPath L (req.path.getD []).length a) ∧
    (∀ a ∈ wsAccesses L msg, InFrame L (cInt msg.length).toNat a) ∧
    (msg.length < 2 ^ 31 → ∀ a ∈ wsAccesses L msg, InFrame L msg.length a) := by
  refine ⟨(jbrRequestMemory_yields L cfg req).accesses_mem, wsAccesses_inFrame L msg, ?_⟩
  intro h
  simpa only [cInt_of_lt h, Int.toNat_ofNat] using wsAccesses_inFrame L msg

theorem parsers_within_bounds_sample :
    (lit "k q").length < 2 ^ 31 ∧
      ∀ a ∈ wsAccesses Limits.sample (lit "k q"), InFrame Limits.sample (lit "k q").length a :=
  ⟨by decide, (parsers_within_bounds Limits.sample ⟨none, false, false⟩
    ⟨lit "GET", none, .absent, .absent, [], 0⟩ (lit "k q")).2.2 (by decide)⟩

/-- `strchr (path.data + 1, '/')` on `/c` reads the NUL at offset 2, the length of
the path. -/
theorem requestAccesses_reads_terminator :
    (lit "/c").length = 2 ∧
      Access.read 2 ∈ requestAccesses Limits.sample ⟨none, false, false⟩
        ⟨lit "POST", some (lit "/c"), .absent, .absent, [], 0⟩ := by
  decide

end Jbr.Bounds
