import Jbr.Http.Stream

/-!
# What a client reads from a query's stream

A client of the endpoint decodes the body of a chunked response as HTTP/1.1 says:
a hexadecimal size and `\r\n`, that many bytes and `\r\n`, again, until a chunk of
size `0` followed by `\r\n`.  `dechunk` is that decoder, written from the format,
not from `jbr.c`.  The bytes `_jbr_on_query` writes to the socket (`wireBytes`)
decode, on every run that visits documents with every call succeeding, to the
explain log, the frames of the documents and the closing `\r\n`.
-/

namespace Jbr.Http

open Jbr.Foundation

/-! ## The decoder -/

def hexDigitValue (b : UInt8) : Option Nat :=
  if 48 ≤ b ∧ b ≤ 57 then some (b.toNat - 48)
  else if 65 ≤ b ∧ b ≤ 70 then some (b.toNat - 55)
  else if 97 ≤ b ∧ b ≤ 102 then some (b.toNat - 87)
  else none

def isHexDigit (b : UInt8) : Bool := (hexDigitValue b).isSome

def hexValue (ds : Bytes) : Nat :=
  ds.foldl (fun acc b => 16 * acc + (hexDigitValue b).getD 0) 0

/-- A chunked body as HTTP/1.1 decodes it; `fuel` bounds the number of chunks. -/
def dechunk : Nat → Bytes → Option Bytes
  | 0, _ => none
  | fuel + 1, l =>
      let ds := l.takeWhile isHexDigit
      let r := l.drop ds.length
      if ds = [] ∨ r.take 2 ≠ crlf then none else
      let r := r.drop 2
      let n := hexValue ds
      if n = 0 then (if r = crlf then some [] else none) else
      if (r.drop n).take 2 ≠ crlf ∨ r.length < n then none
      else (dechunk fuel ((r.drop n).drop 2)).map (r.take n ++ ·)

def dechunkBody (l : Bytes) : Option Bytes := dechunk l.length l

/-- The data of the `fio_write`s, in order. -/
def wireBytes : List Event → Bytes
  | [] => []
  | .write data :: es => data ++ wireBytes es
  | _ :: es => wireBytes es

@[simp] theorem wireBytes_append (a b : List Event) :
    wireBytes (a ++ b) = wireBytes a ++ wireBytes b := by
  induction a with
  | nil => rfl
  | cons e a ih => cases e <;> simp [wireBytes, ih]

/-! ## `%zX` reads back -/

/-- The byte `%zX` prints for a digit. -/
def hexByte (c : Char) : UInt8 := c.toUpper.toNat.toUInt8

theorem hexDigitValue_digitChar : ∀ k < 16, hexDigitValue (hexByte (Nat.digitChar k)) = some k := by
  decide

theorem hexUpper_eq (n : Nat) : hexUpper n = (Nat.toDigits 16 n).map hexByte := rfl

/-- `printf ("%zX", n)` reads back: its bytes are hexadecimal digits, and their
value is `n`. -/
theorem hexUpper_spec (n : Nat) :
    hexUpper n ≠ [] ∧ (∀ b ∈ hexUpper n, isHexDigit b = true) ∧ hexValue (hexUpper n) = n := by
  have h := toDigitsCore_fold 16 (by decide) (fun c => (hexDigitValue (hexByte c)).getD 0)
    (fun k hk => by simp [hexDigitValue_digitChar k hk]) (n + 1) n [] (by omega)
  refine ⟨by simp [hexUpper_eq, toDigits_ne_nil], fun b hb => ?_, ?_⟩
  · obtain ⟨c, hc, rfl⟩ := List.mem_map.mp hb
    rcases h.2 c hc with hc | ⟨k, hk, rfl⟩
    · cases hc
    · have hd := hexDigitValue_digitChar k hk
      simp only [hexByte] at hd
      simp [isHexDigit, hd]
  · simpa [hexValue, hexUpper_eq, List.foldl_map] using h.1

/-! ## The stream decodes to its chunks -/

theorem dechunk_chunk (fuel : Nat) (ch rest : Bytes) (hch : ch ≠ []) :
    dechunk (fuel + 1) (wireBytes (chunkEvents ch) ++ rest) =
      (dechunk fuel rest).map (ch ++ ·) := by
  have hw : wireBytes (chunkEvents ch) ++ rest =
      hexUpper ch.length ++ 13 :: 10 :: (ch ++ 13 :: 10 :: rest) := by
    simp [chunkEvents, wireBytes, crlf]
  have hpre : (hexUpper ch.length ++ 13 :: 10 :: (ch ++ 13 :: 10 :: rest)).takeWhile isHexDigit =
      hexUpper ch.length := by
    rw [List.takeWhile_append_of_pos (hexUpper_spec _).2.1]
    simp [isHexDigit, hexDigitValue]
  have hlen : ch.length ≠ 0 := fun h => hch (List.length_eq_zero.mp h)
  rw [hw]
  simp [dechunk, hpre, (hexUpper_spec _).1, (hexUpper_spec _).2.2, hlen, crlf]

theorem dechunk_last (fuel : Nat) : dechunk (fuel + 1) (lit "0\r\n\r\n") = some [] := rfl

theorem dechunk_chunks (chunks : List Bytes) (fuel : Nat) (hne : ∀ ch ∈ chunks, ch ≠ [])
    (hfuel : chunks.length < fuel) :
    dechunk fuel (wireBytes (chunks.flatMap chunkEvents) ++ lit "0\r\n\r\n") = some chunks.flatten := by
  induction chunks generalizing fuel with
  | nil =>
      obtain ⟨fuel, rfl⟩ := Nat.exists_eq_add_of_lt hfuel
      simpa using dechunk_last fuel
  | cons ch chunks ih =>
      obtain ⟨fuel, rfl⟩ := Nat.exists_eq_add_of_lt (Nat.zero_lt_of_lt hfuel)
      rw [List.flatMap_cons, wireBytes_append, List.append_assoc,
        dechunk_chunk _ _ _ (hne ch (List.mem_cons_self ch chunks)),
        ih _ (fun c hc => hne c (List.mem_cons_of_mem ch hc)) (by simp at hfuel; omega)]
      rfl

theorem length_wireBytes_chunks (chunks : List Bytes) :
    chunks.length ≤ (wireBytes (chunks.flatMap chunkEvents)).length := by
  induction chunks with
  | nil => simp
  | cons ch chunks ih =>
      simp only [List.flatMap_cons, wireBytes_append, List.length_append, List.length_cons]
      have : 1 ≤ (wireBytes (chunkEvents ch)).length := by
        simp only [chunkEvents, wireBytes, List.length_append, crlf, List.length_cons, List.length_nil]
        omega
      omega

theorem dechunkBody_queryChunks (q : Bytes) (ex : Bool) (lead : Bytes) (docs : List Doc) :
    dechunkBody (wireBytes ([.jqlCreate q, .exec q ex, .headers] ++
      (queryChunks lead docs).flatMap chunkEvents ++ [.write (lit "0\r\n\r\n"), .complete])) =
      some (lead ++ (docs.map docFrame).flatten ++ crlf) := by
  obtain ⟨hne, -, hflat⟩ := queryChunks_spec lead docs
  have hw : wireBytes ([.jqlCreate q, .exec q ex, .headers] ++
      (queryChunks lead docs).flatMap chunkEvents ++ [.write (lit "0\r\n\r\n"), .complete]) =
      wireBytes ((queryChunks lead docs).flatMap chunkEvents) ++ lit "0\r\n\r\n" := by
    simp [wireBytes]
  rw [hw, ← hflat, dechunkBody]
  refine dechunk_chunks _ _ hne ?_
  have := length_wireBytes_chunks (queryChunks lead docs)
  have h5 : (lit "0\r\n\r\n").length = 5 := rfl
  simp only [List.length_append]
  omega

/-- Every run of a query that visits documents, every call succeeding, writes a
body that an HTTP/1.1 client decodes to the explain log and the dashes when the
hints ask for them, the frames of the documents in order, and `\r\n`. -/
theorem jbrOnQuery_body_decodes (B : Backend) (K : Codes) (req : HttpRequest) (ctx : JbrCtx)
    (hbody : 0 < req.body.length) (hq : B.jqlCreate (cstr req.body) = 0)
    (hanon : ¬ (ctx.readAnon ∧ B.jqlHasApply (cstr req.body))) (hh : req.hints ≠ .repeated)
    (hrc : (B.exec (cstr req.body)).rc = 0) (hne : (B.exec (cstr req.body)).docs ≠ [])
    (hdocs : ∀ d ∈ (B.exec (cstr req.body)).docs, d.json.1 = 0) :
    dechunkBody (wireBytes (endConn ((jbrOnQuery B K req ctx).run (Conn.init []))).out) =
      some ((if hintsExplain req.hints then (B.exec (cstr req.body)).log ++ dashes else []) ++
        ((B.exec (cstr req.body)).docs.map docFrame).flatten ++ crlf) := by
  rw [jbrOnQuery_out_docs B K req ctx hbody hq hanon hh hrc hne hdocs]
  exact dechunkBody_queryChunks _ _ _ _

theorem jbrOnQuery_body_decodes_sample :
    dechunkBody (wireBytes (endConn ((jbrOnQuery
      { Backend.ok with exec := fun _ => ⟨[], [⟨1, (0, lit "{}")⟩], 0⟩ } Codes.sample
      ⟨lit "POST", some [47], .absent, .absent, lit "q", 0⟩
      ⟨.post, none, 0, false⟩).run (Conn.init []))).out) =
      some ((if hintsExplain .absent then [] ++ dashes else []) ++
        (([⟨1, (0, lit "{}")⟩] : List Doc).map docFrame).flatten ++ crlf) :=
  jbrOnQuery_body_decodes { Backend.ok with exec := fun _ => ⟨[], [⟨1, (0, lit "{}")⟩], 0⟩ }
    Codes.sample ⟨lit "POST", some [47], .absent, .absent, lit "q", 0⟩ ⟨.post, none, 0, false⟩
    (by decide) rfl (by decide) (by decide) rfl (List.cons_ne_nil _ _) (by decide)

/-- A single `X-Hints` value in which `strstr` finds `explain`, as a token or inside
another one such as `noexplain`, attaches the explain log: `ejdb_exec` runs with
`ux.log` set, and the log and the dashes lead the body the client decodes. -/
theorem jbrOnQuery_explain_substring (B : Backend) (K : Codes) (req : HttpRequest) (ctx : JbrCtx)
    {v : Bytes} (hv : req.hints = .single v) (hs : strstr v (lit "explain") = true)
    (hbody : 0 < req.body.length) (hq : B.jqlCreate (cstr req.body) = 0)
    (hanon : ¬ (ctx.readAnon ∧ B.jqlHasApply (cstr req.body)))
    (hrc : (B.exec (cstr req.body)).rc = 0) (hne : (B.exec (cstr req.body)).docs ≠ [])
    (hdocs : ∀ d ∈ (B.exec (cstr req.body)).docs, d.json.1 = 0) :
    .exec (cstr req.body) true ∈ (endConn ((jbrOnQuery B K req ctx).run (Conn.init []))).out ∧
    dechunkBody (wireBytes (endConn ((jbrOnQuery B K req ctx).run (Conn.init []))).out) =
      some ((B.exec (cstr req.body)).log ++ dashes ++
        ((B.exec (cstr req.body)).docs.map docFrame).flatten ++ crlf) := by
  have hh : req.hints ≠ .repeated := by rw [hv]; exact nofun
  have hex : hintsExplain req.hints = true := by rw [hv]; exact hs
  rw [jbrOnQuery_out_docs B K req ctx hbody hq hanon hh hrc hne hdocs, hex]
  exact ⟨by simp, dechunkBody_queryChunks _ _ _ _⟩

theorem jbrOnQuery_explain_substring_noexplain :
    strstr (lit "noexplain") (lit "explain") = true ∧ lit "explain" ∉ hintTokens (lit "noexplain") ∧
    .exec (lit "q") true ∈ (endConn ((jbrOnQuery
      { Backend.ok with exec := fun _ => ⟨lit "plan", [⟨1, (0, lit "{}")⟩], 0⟩ } Codes.sample
      ⟨lit "POST", some [47], .absent, .single (lit "noexplain"), lit "q", 0⟩
      ⟨.post, none, 0, false⟩).run (Conn.init []))).out ∧
    dechunkBody (wireBytes (endConn ((jbrOnQuery
      { Backend.ok with exec := fun _ => ⟨lit "plan", [⟨1, (0, lit "{}")⟩], 0⟩ } Codes.sample
      ⟨lit "POST", some [47], .absent, .single (lit "noexplain"), lit "q", 0⟩
      ⟨.post, none, 0, false⟩).run (Conn.init []))).out) =
      some (lit "plan" ++ dashes ++ (([⟨1, (0, lit "{}")⟩] : List Doc).map docFrame).flatten ++ crlf) :=
  ⟨by decide, by decide, jbrOnQuery_explain_substring
    { Backend.ok with exec := fun _ => ⟨lit "plan", [⟨1, (0, lit "{}")⟩], 0⟩ } Codes.sample
    ⟨lit "POST", some [47], .absent, .single (lit "noexplain"), lit "q", 0⟩ ⟨.post, none, 0, false⟩
    rfl (by decide) (by decide) rfl (by decide) rfl (List.cons_ne_nil _ _) (by decide)⟩

end Jbr.Http
