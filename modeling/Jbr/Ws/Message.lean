import Jbr.Foundation.Memory

/-!
# The WebSocket frame parser

`_jbr_ws_on_message` splits a text frame `key cmd coll [id] body` with a pointer
`data` and an `int len` that it advances past each token, copying the key, the
collection name and the id digits into stack buffers.  `jbrWsOnMessage` follows the
C code line by line in `Mem`; `wsFrame` reads the same decisions off the bytes of
the frame with `takeWhile` and `dropWhile`; `Jbr.Ws.Frame` shows that the two agree.
The handlers are given C strings (`cstr`), which end at the first NUL; the body of
`add` is not terminated in the frame, and `addBody` says what the handler reads of it.
-/

namespace Jbr.Ws

open Jbr.Foundation

/-- `jbwsop_t` -/
inductive JbwsOp where
  | set
  | add
  | del
  | patch
  deriving DecidableEq, Repr

/-- What a frame leads to: closing the socket, or a handler and the C strings it is given. -/
inductive WsAction where
  | close
  | set (key coll : Bytes) (id : Int) (json : Bytes)
  | add (key coll json : Bytes)
  | del (key coll : Bytes) (id : Int)
  | patch (key coll : Bytes) (id : Int) (json : Bytes)
  | query (key query : Bytes)
  deriving DecidableEq, Repr

/-! ## The C code -/

/-- `for (; pos < len && isspace (data[pos]); ++pos); len -= pos; data += pos;` -/
def skipSpaces (msg : Bytes) (data : Nat) (len : Int) (pos : Nat) : Mem (Nat × Int) := do
  let pos ← scan isspace msg data len pos
  return (data + pos, len - pos)

/-- `... if (len < 1) return;`, the step from one token to the next. -/
def skipToToken (msg : Bytes) (data : Nat) (len : Int) (pos : Nat) : Mem (Nat × Int) := do
  let (data, len) ← skipSpaces msg data len pos
  if len < 1 then throw () else return (data, len)

/-- `!strncmp (kw, data, n)`, comparing from index `i`; each step reads `data[i]`. -/
def strncmpLoop (kw msg : Bytes) (data : Nat) : Nat → Nat → Mem Bool
  | 0, _ => pure true
  | n + 1, i => do
      let b ← load msg (data + i)
      if kw.getD i 0 != b then pure false
      else if b == 0 then pure true
      else strncmpLoop kw msg data n (i + 1)

def jbwsKeywords : List (Bytes × JbwsOp) :=
  [(lit "set", .set), (lit "add", .add), (lit "del", .del), (lit "patch", .patch)]

/-- `if (!strncmp (kw₁, data, pos)) ... else if (!strncmp (kw₂, data, pos)) ...` -/
def jbwsOpAt (msg : Bytes) (data pos : Nat) : List (Bytes × JbwsOp) → Mem (Option JbwsOp)
  | [] => pure none
  | (kw, op) :: kws => do
      if ← strncmpLoop kw msg data pos 0 then pure (some op) else jbwsOpAt msg data pos kws

/-- `if (pos < len) { if (!strncmp ("set", data, pos)) wsop = JBWS_SET; else if ... }` -/
def jbwsCommand (msg : Bytes) (data : Nat) (len : Int) (pos : Nat) : Mem (Option JbwsOp) :=
  if pos < len then jbwsOpAt msg data pos jbwsKeywords else pure none

/-- `for (pos = 0; pos < len && pos < JBNUMBUF_SIZE - 1 && isdigit (data[pos]); ++pos)` -/
def digitLoop (msg : Bytes) (data cap : Nat) : Nat → Nat → Mem Nat
  | 0, pos => pure pos
  | fuel + 1, pos => do
      if pos < cap then
        if isdigit (← load msg (data + pos)) then
          let _ ← load msg (data + pos)
          store .nbuf pos
          digitLoop msg data cap fuel (pos + 1)
        else pure pos
      else pure pos

/-- What `_jbr_ws_add_document` reads of its unterminated body, `after` following the frame. -/
def addBody (rest after : Bytes) : Bytes := cstr (rest ++ after)

/-- The id and the body of a `set`, `del` or `patch` frame, from `data` on. -/
def jbrWsId (L : Limits) (msg key coll : Bytes) (op : JbwsOp) (data : Nat) (len : Int) :
    Mem WsAction := do
  let pos ← digitLoop msg data (L.numBufSize - 1) len.toNat 0
  store .nbuf pos
  let nbuf := window msg data pos
  let (data, len) ← skipSpaces msg data len pos
  let id := iwatoi nbuf
  if id < 1 then throw () else
  match op with
  | .set =>
      store .input (data + len)
      return .set key coll id (cstr (window msg data len.toNat))
  | .del => return .del key coll id
  | .patch =>
      store .input (data + len)
      return .patch key coll id (cstr (window msg data len.toNat))
  | .add => throw ()

/-- The branch of `_jbr_ws_on_message` taken for a recognised command. -/
def jbrWsDocument (L : Limits) (msg key : Bytes) (op : JbwsOp) (data : Nat) (len : Int)
    (pos : Nat) : Mem WsAction := do
  let (data, len) ← skipToToken msg data len pos
  let coll := data
  let pos ← scan (! isspace ·) msg data len 0
  let (data, len) := (data + pos, len - pos)
  if pos < 1 ∨ len < 1 ∨ L.collectionNameMaxLen < pos then throw () else
  memcpy .cnamebuf coll pos
  store .cnamebuf pos
  let cname := cstr (window msg coll pos)
  let (data, len) ← skipToToken msg data len 0
  if op = .add then return .add key cname (window msg data len.toNat)
  else jbrWsId L msg key cname op data len

/-- `_jbr_ws_on_message (ws, msg, is_text)` -/
def jbrWsOnMessage (L : Limits) (msg : Bytes) (isText : Bool) : Mem WsAction := do
  if !isText then return .close else
  if msg.length < 1 then throw () else
  let (data, len) ← skipToToken msg 0 (cInt msg.length) 0
  -- Fetch key
  let pos ← scan (! isspace ·) msg data len 0
  if len ≤ pos ∨ jbrMaxKeyLen < pos then throw () else
  memcpy .keybuf data pos
  store .keybuf pos
  let key := cstr (window msg data pos)
  -- Space
  let (data, len) ← skipToToken msg data len pos
  -- Fetch command
  let pos ← scan (! isspace ·) msg data len 0
  match ← jbwsCommand msg data len pos with
  | some op => jbrWsDocument L msg key op data len pos
  | none =>
      if len = 0 then throw () else
      store .input (data + len)
      return .query key (cstr (window msg data len.toNat))

def wsResult (L : Limits) (msg : Bytes) : Option WsAction :=
  result (jbrWsOnMessage L msg true)

def wsAccesses (L : Limits) (msg : Bytes) : List Access :=
  accesses (jbrWsOnMessage L msg true)

/-! ## The same decisions on the bytes of the frame -/

def jbwsOpOf (t : Bytes) (n : Nat) : List (Bytes × JbwsOp) → Option JbwsOp
  | [] => none
  | (kw, op) :: kws => if strncmpEq kw t n then some op else jbwsOpOf t n kws

def idAction (key coll : Bytes) (id : Int) (body : Bytes) : JbwsOp → Option WsAction
  | .set => some (.set key coll id (cstr body))
  | .del => some (.del key coll id)
  | .patch => some (.patch key coll id (cstr body))
  | .add => none

def frameId (L : Limits) (key coll : Bytes) (op : JbwsOp) (t : Bytes) : Option WsAction :=
  let ds := (t.take (L.numBufSize - 1)).takeWhile isdigit
  if iwatoi ds < 1 then none else idAction key coll (iwatoi ds) ((t.drop ds.length).dropWhile isspace) op

def frameDocument (L : Limits) (key : Bytes) (op : JbwsOp) (r : Bytes) : Option WsAction :=
  let t := r.dropWhile isspace
  if t = [] then none else
  let coll := t.takeWhile (! isspace ·)
  let r' := t.dropWhile (! isspace ·)
  if coll = [] ∨ r' = [] ∨ L.collectionNameMaxLen < coll.length then none else
  let t' := r'.dropWhile isspace
  if t' = [] then none else
  if op = .add then some (.add key (cstr coll) t') else frameId L key (cstr coll) op t'

/-- `_jbr_ws_on_message` on the `len` bytes it parses. -/
def wsFrame (L : Limits) (m : Bytes) : Option WsAction :=
  let t₀ := m.dropWhile isspace
  if t₀ = [] then none else
  let key := t₀.takeWhile (! isspace ·)
  let r₁ := t₀.dropWhile (! isspace ·)
  if r₁ = [] ∨ jbrMaxKeyLen < key.length then none else
  let t₁ := r₁.dropWhile isspace
  if t₁ = [] then none else
  let cmd := t₁.takeWhile (! isspace ·)
  let r₂ := t₁.dropWhile (! isspace ·)
  (if r₂ = [] then none else jbwsOpOf t₁ cmd.length jbwsKeywords).elim
    (some (.query (cstr key) (cstr t₁))) fun op => frameDocument L (cstr key) op r₂

end Jbr.Ws
