import CloudEdgePush.Server.Session

/-!
# The stream server

All sessions of the server over one set of shared dictionaries.  A session takes its turns on
the dictionaries as the others left them; that its connection has ended does not stop the
timers and threads that were started for it.  The HTTP side appends to the notify queues.
-/

namespace CloudEdgePush.Server

def sessionid (ip port : String) : String :=
  String.intercalate "_" ["client", ip.map fun ch => if ch = '.' then '_' else ch, port]

/-- The shared dictionaries, and the connections in the order in which they were accepted.  The
`shared` of a connection is what it saw at its last turn. -/
structure StreamServer where
  shared : Shared
  conns : List Conn

namespace StreamServer

def start (shared : Shared) : StreamServer := ⟨shared, []⟩

inductive Event
  | connect (ip port : String)
  | turn (i : Nat) (e : Conn.Event)
  /-- `publish_message` of the HTTP side. -/
  | publish (sessionid : String) (msg : List UInt8)

variable (cjson : Cjson)

def connect (s : StreamServer) (ip port : String) : StreamServer :=
  { s with conns := s.conns ++ [Conn.connect (sessionid ip port) s.shared] }

def publish (s : StreamServer) (sessionid : String) (msg : List UInt8) : StreamServer :=
  { s with
    shared.notifyMsgQueue := Function.update s.shared.notifyMsgQueue sessionid
      (s.shared.notifyMsgQueue sessionid ++ [msg]) }

def step (s : StreamServer) : Event → Option StreamServer
  | .connect ip port => some (s.connect ip port)
  | .publish sessionid msg => some (s.publish sessionid msg)
  | .turn i e =>
      match s.conns[i]? with
      | none => none
      | some c =>
          (Conn.step cjson { c with shared := s.shared } e).map fun c' =>
            { shared := c'.shared, conns := s.conns.set i c' }

theorem step_turn {s s' : StreamServer} {i : Nat} {e : Conn.Event} {c : Conn}
    (hc : s.conns[i]? = some c) (hstep : step cjson s (.turn i e) = some s') :
    ∃ c', Conn.step cjson { c with shared := s.shared } e = some c' ∧ s'.shared = c'.shared ∧
      s'.conns = s.conns.set i c' := by
  simp only [step, hc, Option.map_eq_some_iff] at hstep
  obtain ⟨c', hc', rfl⟩ := hstep
  exact ⟨c', hc', rfl, rfl⟩

end StreamServer

end CloudEdgePush.Server
