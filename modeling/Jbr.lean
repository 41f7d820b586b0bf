import Jbr.Foundation.Bytes
import Jbr.Foundation.Memory
import Jbr.Ws.Message
import Jbr.Ws.Frame
import Jbr.Http.Conn
import Jbr.Http.FillCtx
import Jbr.Http.Handlers
import Jbr.Http.Query
import Jbr.Http.Gateway
import Jbr.Http.Stream
import Jbr.Http.Reply
import Jbr.Http.Route
import Jbr.Ws.Grammar
import Jbr.Bounds
import Jbr.Lifecycle
import Jbr.Lifecycle.Race
import Jbr.Lifecycle.Agree
import Jbr.Http.Chunked
import Jbr.Ws.Client
import Jbr.Http.Client
import Jbr.Http.Answer
