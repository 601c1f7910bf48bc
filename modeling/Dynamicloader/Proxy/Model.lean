import Dynamicloader.Service.Steps
/-!
# DynXloaderServiceProxy

The client's side of the service. A call made while the service is bound is
a binder transaction; one made before that starts a `RetryThread`, which
tries again twice a second and gives up after ten times. Every such call
has a thread of its own.

The proxy keeps the calls in the order in which the client made them, each
with its thread. Whether the service has handled a call is recorded beside
it; the code does not see this record.

A service exception travels to the caller. A `RemoteException` does not say
whether the service has handled the call.
-/

namespace Dynamicloader

namespace Proxy

open Service (Caller Throwable)

/-- What is asked of the service. -/
inductive Operation where
  | addModule (pkgName processName modulePath : Option String)
  | removeModule (pkgName processName : Option String)
  | checkModuleExist (pkgName processName modulePath : Option String)
  deriving DecidableEq

/-- The service's side of an operation. -/
def Operation.serve (caller : Caller) :
    Operation → Service.State → Except Throwable ℤ × Service.State
  | .addModule pkgName processName modulePath, s =>
    Service.addModule caller pkgName processName modulePath s
  | .removeModule pkgName processName, s => Service.removeModule caller pkgName processName s
  | .checkModuleExist pkgName processName modulePath, s =>
    (Service.checkModuleExist pkgName processName modulePath s, s)

/-- What becomes of a binder transaction: its reply comes back, or it ends in
a `RemoteException` before or after the service has handled it. -/
inductive Transaction where
  | answered
  | lost
  | unanswered
  deriving DecidableEq

/-- `mDynXloaderService.op(...)`; `none` is a `RemoteException`. -/
def transact (caller : Caller) (op : Operation) (t : Transaction) (s : Service.State) :
    Option (Except Throwable ℤ) × Service.State :=
  match t with
  | .answered => (some (op.serve caller s).1, (op.serve caller s).2)
  | .lost => (none, s)
  | .unanswered => (none, (op.serve caller s).2)

/-- A call of the client. `waiting` says that its `RetryThread` runs, `tries`
is the thread's `i`, and `handled` that the service has seen the call. -/
structure Call where
  op : Operation
  tries : ℕ := 0
  waiting : Bool := false
  handled : Bool := false
  deriving DecidableEq

structure State where
  service : Service.State
  /-- `mDynXloaderService != null` -/
  connected : Bool := false
  calls : List Call := []

/-- `MAX_RETRY_COUNT` -/
def maxRetryCount : ℕ := 10

/-! ## The calls -/

/-- The three calls: `direct` is what is asked of a service that is bound,
`op` what the retry thread asks. -/
def request (caller : Caller) (direct op : Operation) (t : Transaction) (x : State) :
    Except Throwable ℤ × State :=
  if x.connected then
    let r := transact caller direct t x.service
    (r.1.getD (.ok (-1)),
      { x with service := r.2, calls := x.calls ++ [{ op := op, handled := t ≠ .lost }] })
  else (.ok 2, { x with calls := x.calls ++ [{ op := op, waiting := true }] })

def addModule (caller : Caller) (pkgName processName modulePath : Option String) :
    Transaction → State → Except Throwable ℤ × State :=
  request caller (.addModule pkgName processName modulePath)
    (.addModule pkgName processName modulePath)

def removeModule (caller : Caller) (pkgName processName : Option String) :
    Transaction → State → Except Throwable ℤ × State :=
  request caller (.removeModule pkgName processName) (.removeModule pkgName processName)

/-- `checkModuleExist` asks a bound service for a removal. -/
def checkModuleExist (caller : Caller) (pkgName processName modulePath : Option String) :
    Transaction → State → Except Throwable ℤ × State :=
  request caller (.removeModule pkgName processName)
    (.checkModuleExist pkgName processName modulePath)

/-! ## The retry threads -/

/-- One round of the loop that did not get through: the next, if there is
one. -/
def Call.again (c : Call) : Call :=
  { c with tries := c.tries + 1, waiting := c.tries + 1 < maxRetryCount }

/-- `RetryThread.run` from the end of one `sleep` to the next. -/
def Call.awake (caller : Caller) (connected : Bool) (t : Transaction) (c : Call)
    (s : Service.State) : Call × Service.State :=
  if connected then
    match transact caller c.op t s with
    -- the thread also ends where the service throws
    | (some _, s') => ({ c with waiting := false, handled := true }, s')
    | (none, s') => ({ c.again with handled := c.handled || t ≠ .lost }, s')
  else (c.again, s)

/-- The thread of call `n` wakes up. -/
def wake (caller : Caller) (n : ℕ) (t : Transaction) (x : State) : State :=
  match x.calls.splitAt n with
  | (before, c :: after) =>
    if c.waiting then
      let r := c.awake caller x.connected t x.service
      { x with service := r.2, calls := before ++ r.1 :: after }
    else x
  | (_, []) => x

/-- An exception other than `RemoteException` ends the thread of call `n`. -/
def abandon (n : ℕ) (x : State) : State :=
  match x.calls.splitAt n with
  | (before, c :: after) => { x with calls := before ++ { c with waiting := false } :: after }
  | (_, []) => x

/-! ## The machine -/

/-- What happens to the proxy. The service's process can end and be started
again at any time. -/
inductive Event where
  | onServiceConnected
  | onServiceDisconnected
  | addModule (pkgName processName modulePath : Option String) (t : Transaction)
  | removeModule (pkgName processName : Option String) (t : Transaction)
  | checkModuleExist (pkgName processName modulePath : Option String) (t : Transaction)
  | wake (n : ℕ) (t : Transaction)
  | abandon (n : ℕ)
  | restart

/-- **One event**, and what the client is answered. -/
def step (caller : Caller) : Machine State Event (Except Throwable ℤ)
  | x, .onServiceConnected => ({ x with connected := true }, [])
  | x, .onServiceDisconnected => ({ x with connected := false }, [])
  | x, .addModule p q m t => ((addModule caller p q m t x).2, [(addModule caller p q m t x).1])
  | x, .removeModule p q t => ((removeModule caller p q t x).2, [(removeModule caller p q t x).1])
  | x, .checkModuleExist p q m t =>
    ((checkModuleExist caller p q m t x).2, [(checkModuleExist caller p q m t x).1])
  | x, .wake n t => (wake caller n t x, [])
  | x, .abandon n => (abandon n x, [])
  | x, .restart => ({ x with service := Service.start x.service.prefs }, [])

end Proxy

end Dynamicloader
