/-
# A TCP connection of the device

`tun2socks` takes the TCP connections of the tunnel device from lwIP and passes each on through the
SOCKS proxy.  A `tcp_client` stands between the two: it has a buffer for either direction, and each
of its sides can go down while the other still has bytes to get rid of.

The client is `none` once it is freed.  What lwIP keeps of the connection and what the SOCKS client
keeps are states of their own, which go on without it: whether they may still be used, and what
they would call.  A step that breaks an `ASSERT`, uses what is freed or closed, or starts an
operation where one is under way gives `none`.  What lwIP answers to a call comes with the event.

A handler that lwIP calls runs the jobs it has made, `SYNC_COMMIT`, before it returns: the SOCKS
side calls the client then, any number of times, and may bring the client down.  `dead_client` tells
the handler, which returns `ERR_ABRT` then.  Which jobs are run comes with the event; a job the
SOCKS side has no reason for does nothing.  Between `DEAD_ENTER` and `DEAD_LEAVE2` the variable is
killed exactly when the client side goes down, so it is modelled by what the client is afterwards
(`clientDead`).

Not modelled: the memory that runs out in `listener_accept_func`, jobs of other clients and of the
device, and `pbuf_free`, which `client_recv_func` leaves out where the client is dead.
-/
import ShiroKhorshid.Lib.Transition

namespace ShiroKhorshid.Tun

/-! ## 1. The state -/

/-- `TCP_WND` -/
def tcpWnd : ℕ := 4 * 1460

/-- `CLIENT_SOCKS_RECV_BUF_SIZE` -/
def clientSocksRecvBufSize : ℕ := 8192

/-- `err_t`, as far as it is told apart -/
inductive ErrT
  | ok
  | mem
  | abrt
  | other
deriving DecidableEq

/-- What has become of a `tcp_pcb`. -/
inductive PcbState
  | active
  /-- by `tcp_close` -/
  | closed
  /-- by `tcp_abort` -/
  | aborted
  /-- lwIP has freed it and calls the error function -/
  | lost
deriving DecidableEq

/-- A `tcp_pcb`, as its user sees it. -/
structure Pcb where
  state : PcbState
  /-- whether `tcp_err`, `tcp_recv` and `tcp_sent` have set a function -/
  errf : Bool
  recv : Bool
  sent : Bool
  rcv_wnd : ℕ
  /-- the bytes that were handed to the function of `tcp_recv` -/
  delivered : List UInt8
  /-- the bytes that `tcp_write` has taken -/
  written : List UInt8
  /-- how many of these the other end has confirmed -/
  acked : ℕ
deriving DecidableEq

/-- A `BSocksClient`, as its user sees it. -/
structure SocksConn where
  live : Bool
  up : Bool
  /-- the bytes of the send operation under way -/
  sending : Option (List UInt8)
  /-- whether a receive operation is under way -/
  receiving : Bool
  /-- the bytes it has sent -/
  taken : List UInt8
  /-- the bytes it has received -/
  given : List UInt8
deriving DecidableEq

/-- `struct tcp_client`.  `buf` is the part in use, and `socks_recv_buf` is `none` where
`socks_recv_buf_used` is -1. -/
structure TcpClient where
  client_closed : Bool
  buf : List UInt8
  socks_up : Bool
  socks_closed : Bool
  socks_recv_buf : Option (List UInt8)
  socks_recv_buf_sent : ℕ
  socks_recv_waiting : Bool
  socks_recv_tcp_pending : ℕ
deriving DecidableEq

/-- A client and what is on its two sides. -/
structure Conn where
  client : Option TcpClient
  pcb : Pcb
  socks : SocksConn
deriving DecidableEq

/-- What lwIP answers: the room that `tcp_sndbuf` tells and the result of `tcp_write`, round by
round, and the results of `tcp_output` and `tcp_close`. -/
structure Answers where
  writes : List (ℕ × ErrT)
  output : ErrT
  close : ErrT
deriving DecidableEq

namespace Conn

/-- An `ASSERT`. -/
def assert (s : Conn) (p : Bool) : Option Conn := if p then some s else none

/-! ## 2. What the client calls -/

/-- `tcp_recv(client->pcb, NULL)` -/
def tcpRecvNull (s : Conn) : Option Conn := do
  let s ← s.assert (s.pcb.state = .active)
  return { s with pcb.recv := false }

/-- `tcp_sent(client->pcb, client_sent_func)` -/
def tcpSent (s : Conn) : Option Conn := do
  let s ← s.assert (s.pcb.state = .active)
  return { s with pcb.sent := true }

/-- The three calls that remove the callbacks. -/
def removeCallbacks (s : Conn) : Option Conn := do
  let s ← s.assert (s.pcb.state = .active)
  return { s with pcb.errf := false, pcb.recv := false, pcb.sent := false }

/-- `tcp_close` -/
def tcpClose (err : ErrT) (s : Conn) : Option Conn := do
  let s ← s.assert (s.pcb.state = .active)
  return if err = .ok then { s with pcb.state := .closed } else s

/-- `tcp_abort`, which would call the error function. -/
def tcpAbort (s : Conn) : Option Conn := do
  let s ← s.assert (s.pcb.state = .active && !s.pcb.errf)
  return { s with pcb.state := .aborted }

/-- `tcp_recved` -/
def tcpRecved (len : ℕ) (s : Conn) : Option Conn := do
  let s ← s.assert (s.pcb.state = .active && len ≤ 65535 - s.pcb.rcv_wnd)
  return { s with pcb.rcv_wnd := min (s.pcb.rcv_wnd + len) tcpWnd }

/-- `tcp_write`, where it takes the bytes. -/
def tcpWrite (bs : List UInt8) (s : Conn) : Option Conn := do
  let s ← s.assert (s.pcb.state = .active)
  return { s with pcb.written := s.pcb.written ++ bs }

/-- `BSocksClient_Free` -/
def bSocksClientFree (s : Conn) : Option Conn := do
  let s ← s.assert s.socks.live
  return { s with socks.live := false, socks.sending := none, socks.receiving := false }

/-- `StreamPassInterface_Sender_Send` -/
def senderSend (bs : List UInt8) (s : Conn) : Option Conn := do
  let s ← s.assert (s.socks.live && s.socks.up && s.socks.sending.isNone && bs ≠ [])
  return { s with socks.sending := some bs }

/-- `StreamRecvInterface_Receiver_Recv` -/
def receiverRecv (s : Conn) : Option Conn := do
  let s ← s.assert (s.socks.live && s.socks.up && !s.socks.receiving)
  return { s with socks.receiving := true }

/-! ## 3. Freeing -/

/-- `client_dealloc` -/
def clientDealloc (s : Conn) : Option Conn := do
  let c ← s.client
  let s ← s.assert c.client_closed
  let s ← s.assert c.socks_closed
  return { s with client := none }

/-- `client_handle_freed_client`, with what `client_free_socks` does -/
def handleFreedClient (freeSocks : Conn → Option Conn) (s : Conn) : Option Conn := do
  let c ← s.client
  let s ← s.assert (!c.client_closed)
  let s := { s with client := some { c with client_closed := true } }
  -- if we have data to be sent to SOCKS and can send it, keep sending
  if c.buf ≠ [] ∧ c.socks_closed = false then return s
  else if c.socks_closed = false then freeSocks s
  else s.clientDealloc

/-- `client_free_client`, with what `client_free_socks` does -/
def freeClient (freeSocks : Conn → Option Conn) (a : Answers) (s : Conn) : Option Conn := do
  let c ← s.client
  let s ← s.assert (!c.client_closed)
  let s ← s.removeCallbacks
  let s ← s.tcpClose a.close
  let s ← (if a.close ≠ .ok then s.tcpAbort else some s)
  s.handleFreedClient freeSocks

/-- `client_free_socks`.  It and `client_free_client` call each other; each asserts that its side is
open and closes it first, so that `depth` has never to be more than two. -/
def freeSocks (a : Answers) : ℕ → Conn → Option Conn
  | 0, _ => none
  | depth + 1, s => do
    let c ← s.client
    let s ← s.assert (!c.socks_closed)
    -- stop sending to SOCKS
    let s ← (if c.socks_up ∧ c.client_closed = false then s.tcpRecvNull else some s)
    let s ← s.bSocksClientFree
    let s := { s with client := some { c with socks_closed := true } }
    -- if we have data to be sent to the client and we can send it, keep sending
    if c.socks_up ∧ (c.socks_recv_buf.isSome ∨ c.socks_recv_tcp_pending > 0) ∧
        c.client_closed = false then return s
    else if c.client_closed = false then s.freeClient (freeSocks a depth) a
    else s.clientDealloc

/-- `client_free_socks` -/
def clientFreeSocks (a : Answers) (s : Conn) : Option Conn := freeSocks a 2 s

/-- `client_handle_freed_client` -/
def clientHandleFreedClient (a : Answers) (s : Conn) : Option Conn :=
  s.handleFreedClient (clientFreeSocks a)

/-- `client_free_client` -/
def clientFreeClient (a : Answers) (s : Conn) : Option Conn := s.freeClient (clientFreeSocks a) a

/-- `client_abort_client` -/
def clientAbortClient (a : Answers) (s : Conn) : Option Conn := do
  let c ← s.client
  let s ← s.assert (!c.client_closed)
  let s ← s.removeCallbacks
  let s ← s.tcpAbort
  s.clientHandleFreedClient a

/-- `client_murder` -/
def clientMurder (s : Conn) : Option Conn := do
  let c ← s.client
  -- free client
  let s ← (if c.client_closed = false then do
      let s ← s.removeCallbacks
      s.tcpAbort
    else some s)
  -- free SOCKS
  let s ← (if c.socks_closed = false then s.bSocksClientFree else some s)
  -- dealloc entry
  { s with client := some { c with client_closed := true, socks_closed := true } }.clientDealloc

/-! ## 4. What SOCKS calls -/

/-- `client_send_to_socks` -/
def clientSendToSocks (s : Conn) : Option Conn := do
  let c ← s.client
  let s ← s.assert (!c.socks_closed)
  let s ← s.assert c.socks_up
  let s ← s.assert (c.buf ≠ [])
  s.senderSend c.buf

/-- `client_socks_recv_initiate` -/
def clientSocksRecvInitiate (s : Conn) : Option Conn := do
  let c ← s.client
  let s ← s.assert (!c.client_closed)
  let s ← s.assert (!c.socks_closed)
  let s ← s.assert c.socks_up
  let s ← s.assert c.socks_recv_buf.isNone
  s.receiverRecv

/-- The rounds of `client_socks_recv_send_out`, and whether `tcp_write` did not fail for good. -/
def sendOutLoop : List (ℕ × ErrT) → Conn → Option (Conn × Bool)
  | [], s => some (s, true)
  | (sndbuf, err) :: rest, s => do
    let c ← s.client
    let b ← c.socks_recv_buf
    let to_write := min (b.length - c.socks_recv_buf_sent) sndbuf
    if to_write = 0 then return (s, true)
    else
      match err with
      | .ok =>
        let s ← s.tcpWrite ((b.drop c.socks_recv_buf_sent).take to_write)
        let s := { s with client := some { c with
          socks_recv_buf_sent := c.socks_recv_buf_sent + to_write
          socks_recv_tcp_pending := c.socks_recv_tcp_pending + to_write } }
        if c.socks_recv_buf_sent + to_write < b.length then sendOutLoop rest s
        else return (s, true)
      | .mem => return (s, true)
      | _ => return (s, false)

/-- `client_socks_recv_send_out`, and whether the client is still up -/
def clientSocksRecvSendOut (a : Answers) (s : Conn) : Option (Conn × Bool) := do
  let c ← s.client
  let s ← s.assert (!c.client_closed)
  let s ← s.assert c.socks_up
  let b ← c.socks_recv_buf
  let s ← s.assert (c.socks_recv_buf_sent < b.length)
  let s ← s.assert (!c.socks_recv_waiting)
  let (s, writing) ← s.sendOutLoop a.writes
  if writing = false then
    let s ← s.clientAbortClient a
    return (s, false)
  -- start sending now
  else if a.output ≠ .ok then
    let s ← s.clientAbortClient a
    return (s, false)
  else
    let c ← s.client
    -- more data to queue?
    if c.socks_recv_buf_sent < b.length then
      if c.socks_recv_tcp_pending = 0 then
        let s ← s.clientAbortClient a
        return (s, false)
      else
        -- set waiting, continue in client_sent_func
        return ({ s with client := some { c with socks_recv_waiting := true } }, true)
    -- everything was queued
    else return ({ s with client := some { c with socks_recv_buf := none } }, true)

/-- `BSOCKSCLIENT_EVENT_ERROR`, `BSOCKSCLIENT_EVENT_UP` and `BSOCKSCLIENT_EVENT_ERROR_CLOSED` -/
inductive SocksEvent
  | error
  | up
  | errorClosed
deriving DecidableEq

/-- `client_socks_handler` -/
def clientSocksHandler (event : SocksEvent) (a : Answers) (s : Conn) : Option Conn := do
  let c ← s.client
  let s ← s.assert (!c.socks_closed)
  match event with
  | .error => s.clientFreeSocks a
  | .up =>
    let s ← s.assert (!c.socks_up)
    -- init receiving
    let c := { c with socks_recv_buf := none, socks_recv_tcp_pending := 0 }
    let s ← (if c.client_closed = false then s.tcpSent else some s)
    -- set up
    let c := { c with socks_up := true }
    let s := { s with client := some c }
    -- start sending data if there is any
    let s ← (if c.buf ≠ [] then s.clientSendToSocks else some s)
    -- start receiving data if client is still up
    if c.client_closed = false then s.clientSocksRecvInitiate else some s
  | .errorClosed =>
    let s ← s.assert c.socks_up
    s.clientFreeSocks a

/-- `client_socks_send_handler_done` -/
def clientSocksSendHandlerDone (data_len : ℕ) (a : Answers) (s : Conn) : Option Conn := do
  let c ← s.client
  let s ← s.assert (!c.socks_closed)
  let s ← s.assert c.socks_up
  let s ← s.assert (c.buf ≠ [])
  let s ← s.assert (0 < data_len ∧ data_len ≤ c.buf.length)
  -- remove sent data from buffer
  let buf := c.buf.drop data_len
  let s := { s with client := some { c with buf := buf } }
  -- confirm sent data
  let s ← (if c.client_closed = false then s.tcpRecved data_len else some s)
  -- send any further data
  if buf ≠ [] then s.senderSend buf
  -- client was closed we've sent everything we had buffered; we're done with it
  else if c.client_closed then s.clientFreeSocks a
  else return s

/-- `client_socks_recv_handler_done` -/
def clientSocksRecvHandlerDone (data : List UInt8) (a : Answers) (s : Conn) : Option Conn := do
  let c ← s.client
  let s ← s.assert (data ≠ [] ∧ data.length ≤ clientSocksRecvBufSize)
  let s ← s.assert (!c.socks_closed)
  let s ← s.assert c.socks_up
  let s ← s.assert c.socks_recv_buf.isNone
  -- if client was closed, stop receiving
  if c.client_closed then return s
  else
    -- set amount of data in buffer
    let s := { s with client := some { c with
      socks_recv_buf := some data, socks_recv_buf_sent := 0, socks_recv_waiting := false } }
    -- send to client
    let (s, up) ← s.clientSocksRecvSendOut a
    if up = false then return s
    else
      let c ← s.client
      -- continue receiving if needed
      if c.socks_recv_buf.isNone then s.clientSocksRecvInitiate else return s

/-! ## 5. Jobs -/

/-- A call of the SOCKS side. -/
inductive Job
  | socks (event : SocksEvent) (a : Answers)
  | sendDone (data_len : ℕ) (a : Answers)
  | recvDone (data : List UInt8) (a : Answers)

/-- The SOCKS client comes up once, and finishes what was started. -/
def JobEnabled (s : Conn) : Job → Prop
  | .socks .error _ => s.socks.live
  | .socks .up _ => s.socks.live ∧ s.socks.up = false
  | .socks .errorClosed _ => s.socks.live ∧ s.socks.up
  | .sendDone data_len _ =>
    s.socks.live ∧ 0 < data_len ∧ s.socks.sending.any fun bs => decide (data_len ≤ bs.length)
  | .recvDone data _ =>
    s.socks.live ∧ s.socks.receiving ∧ data ≠ [] ∧ data.length ≤ clientSocksRecvBufSize

instance (s : Conn) (j : Job) : Decidable (s.JobEnabled j) := by
  unfold JobEnabled
  split <;> infer_instance

def runJob (s : Conn) : Job → Option Conn
  | .socks .up a => { s with socks.up := true }.clientSocksHandler .up a
  | .socks event a => s.clientSocksHandler event a
  | .sendDone data_len a =>
    { s with
      socks.sending := none
      socks.taken := s.socks.taken ++ (s.socks.sending.getD []).take data_len
      }.clientSocksSendHandlerDone data_len a
  | .recvDone data a =>
    { s with
      socks.receiving := false
      socks.given := s.socks.given ++ data }.clientSocksRecvHandlerDone data a

/-- One job after the other. -/
def runJobs : List Job → Conn → Option Conn
  | [], s => some s
  | j :: rest, s =>
    if s.JobEnabled j then do
      let s ← s.runJob j
      runJobs rest s
    else runJobs rest s

/-- `DEAD_KILLED`, for a client that was not closed before -/
def clientDead (s : Conn) : Bool := s.client.all (·.client_closed)

/-- `SYNC_COMMIT`, and what is returned after it -/
def syncCommit (jobs : List Job) (s : Conn) : Option (Conn × ErrT) := do
  let s ← runJobs jobs s
  return (s, if s.clientDead then .abrt else .ok)

/-! ## 6. What lwIP calls -/

/-- `client_err_func` -/
def clientErrFunc (a : Answers) (s : Conn) : Option Conn := do
  let c ← s.client
  let s ← s.assert (!c.client_closed)
  -- the pcb was taken care of by the caller
  s.clientHandleFreedClient a

/-- `client_recv_func`, where no `p` says that the connection is closed -/
def clientRecvFunc (p : Option (List UInt8)) (a : Answers) (jobs : List Job) (s : Conn) :
    Option (Conn × ErrT) := do
  let c ← s.client
  let s ← s.assert (!c.client_closed)
  match p with
  | none =>
    let s ← s.clientFreeClient a
    return (s, .abrt)
  | some p =>
    let s ← s.assert (p ≠ [])
    -- check if we have enough buffer
    if p.length > tcpWnd - c.buf.length then return (s, .mem)
    else
      -- copy data to buffer
      let buf := c.buf ++ p
      let s := { s with client := some { c with buf := buf } }
      -- if there was nothing in the buffer before, and SOCKS is up, start send data
      if buf.length = p.length ∧ c.socks_up then
        let s ← s.assert (!c.socks_closed)
        let s ← s.clientSendToSocks
        s.syncCommit jobs
      else return (s, .ok)

/-- `client_sent_func` -/
def clientSentFunc (len : ℕ) (a : Answers) (jobs : List Job) (s : Conn) :
    Option (Conn × ErrT) := do
  let c ← s.client
  let s ← s.assert (!c.client_closed)
  let s ← s.assert c.socks_up
  let s ← s.assert (0 < len ∧ len ≤ c.socks_recv_tcp_pending)
  -- decrement pending
  let c := { c with socks_recv_tcp_pending := c.socks_recv_tcp_pending - len }
  let s := { s with client := some c }
  -- continue queuing
  match c.socks_recv_buf with
  | some b =>
    let s ← s.assert c.socks_recv_waiting
    let s ← s.assert (c.socks_recv_buf_sent < b.length)
    let s := { s with client := some { c with socks_recv_waiting := false } }
    -- possibly send more data
    let (s, up) ← s.clientSocksRecvSendOut a
    if up = false then return (s, .abrt)
    else
      let c ← s.client
      -- we just queued some data, so it can't have been confirmed yet
      let s ← s.assert (c.socks_recv_tcp_pending > 0)
      -- continue receiving if needed
      if c.socks_recv_buf.isNone ∧ c.socks_closed = false then
        let s ← s.clientSocksRecvInitiate
        s.syncCommit jobs
      else return (s, .ok)
  | none =>
    -- have we sent everything after SOCKS was closed?
    if c.socks_closed ∧ c.socks_recv_tcp_pending = 0 then
      let s ← s.clientFreeClient a
      return (s, .abrt)
    else return (s, .ok)

/-! ## 7. Steps -/

/-- What happens to a client: lwIP calls one of its functions, which may run jobs, the SOCKS client
calls one by itself, or `tun2socks` is told to end. -/
inductive Event
  | recv (p : Option (List UInt8)) (a : Answers) (jobs : List Job)
  | err (a : Answers)
  | sent (len : ℕ) (a : Answers) (jobs : List Job)
  | job (j : Job)
  | murder

/-- lwIP calls what is set, with bytes that fit in the window, and confirms what it was given.
Nobody asks whether there is still a client, but `murder`, which goes through the list of them. -/
def Enabled (s : Conn) : Event → Prop
  | .recv (some p) _ _ =>
    s.pcb.state = .active ∧ s.pcb.recv ∧ p ≠ [] ∧ p.length ≤ s.pcb.rcv_wnd
  | .recv none _ _ => s.pcb.state = .active ∧ s.pcb.recv
  | .err _ => s.pcb.state = .active ∧ s.pcb.errf
  | .sent len _ _ =>
    s.pcb.state = .active ∧ s.pcb.sent ∧ 0 < len ∧ s.pcb.acked + len ≤ s.pcb.written.length
  | .job j => s.JobEnabled j
  | .murder => s.client.isSome

instance (s : Conn) (e : Event) : Decidable (s.Enabled e) := by
  unfold Enabled
  split <;> infer_instance

/-- What is done, and returned to lwIP; `none` where something is broken. -/
def handle (s : Conn) : Event → Option (Conn × ErrT)
  | .recv (some p) a jobs =>
    { s with
      pcb.rcv_wnd := s.pcb.rcv_wnd - p.length
      pcb.delivered := s.pcb.delivered ++ p }.clientRecvFunc (some p) a jobs
  | .recv none a jobs => s.clientRecvFunc none a jobs
  | .err a => ({ s with pcb.state := .lost }.clientErrFunc a).map (·, .ok)
  | .sent len a jobs => { s with pcb.acked := s.pcb.acked + len }.clientSentFunc len a jobs
  | .job j => (s.runJob j).map (·, .ok)
  | .murder => s.clientMurder.map (·, .ok)

def step (s : Conn) (e : Event) : Option Conn := (s.handle e).map Prod.fst

/-- `listener_accept_func` up to its `SYNC_COMMIT`, with what the memory of the client holds -/
def listenerAcceptFunc (memory : TcpClient) : Conn where
  client := some
    { memory with client_closed := false, buf := [], socks_up := false, socks_closed := false }
  pcb :=
    { state := .active, errf := true, recv := true, sent := false, rcv_wnd := tcpWnd
      delivered := [], written := [], acked := 0 }
  socks :=
    { live := true, up := false, sending := none, receiving := false, taken := [], given := [] }

/-- The whole of it -/
def listenerAccepted (memory : TcpClient) (jobs : List Job) : Option (Conn × ErrT) :=
  (listenerAcceptFunc memory).syncCommit jobs

end Conn

end ShiroKhorshid.Tun
