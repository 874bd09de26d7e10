import Mathlib.Data.List.Perm.Basic
import CloudEdgePush.Lib.Transition
import CloudEdgePush.Client.Reading

/-!
# Target ranges of the reads

`handleReadHeader` requests the rest of a frame with the length `fullMsgLen - kTotalHeadLen`
of a header it got from the network.  On the current connection at most one read is
outstanding, and a header read fills the whole of `_rbuf`; from this invariant follows what
every step of the client does to its reads (`step_reads`), and from that the exact condition
under which no read leaves `_rbuf`: no header announces less than its own sixteen bytes.
-/

namespace CloudEdgePush.Client.TcpClientImpl

open CloudEdgePush.Lib.Bytes CloudEdgePush.Lib.Transition

variable {σ : Type}

/-- The header that an event hands to `handleReadHeader` of a session that is not stopped. -/
def headerRead (c : TcpClientImpl σ) : Event → Option Bytes
  | .readDone i =>
      match c.io.reads[i]? with
      | none => none
      | some op =>
          if op.handler = .handleReadHeader ∧ c.stopped = false then
            some (c.io.inbox.take op.length)
          else none
  | _ => none

/-- The header an event brings, if any, announces at least its own length. -/
def HeaderCountsItself (c : TcpClientImpl σ) (e : Event) : Prop :=
  ∀ header, c.headerRead e = some header → kTotalHeadLen ≤ fullMsgLenOf header

instance (c : TcpClientImpl σ) (e : Event) : Decidable (c.HeaderCountsItself e) :=
  inferInstanceAs (Decidable (∀ header ∈ c.headerRead e, kTotalHeadLen ≤ fullMsgLenOf header))

def ReadsInRange (c : TcpClientImpl σ) : Prop := ∀ req ∈ c.issuedReads, req.InRange

instance (c : TcpClientImpl σ) : Decidable c.ReadsInRange :=
  inferInstanceAs (Decidable (∀ req ∈ c.issuedReads, req.InRange))

def Drained (c : TcpClientImpl σ) : Prop := ∀ op ∈ c.io.reads, op.connection < c.io.connection

/-- The alternation of header and body reads, as an invariant. -/
structure ReadInv (c : TcpClientImpl σ) : Prop where
  old : ∀ op ∈ c.io.reads, op.connection ≤ c.io.connection
  one : c.io.reads.countP (·.connection = c.io.connection) ≤ 1
  header : ∀ op ∈ c.io.reads, op.connection = c.io.connection →
    op.handler = .handleReadHeader → op.offset = 0 ∧ op.length = 16 ∧ c.rbuf.length = 16

theorem ReadInv.of_drained {c : TcpClientImpl σ} (h : Drained c) : ReadInv c := by
  refine ⟨fun op hop => (h op hop).le, ?_, fun op hop heq _ => ?_⟩
  · rw [List.countP_eq_zero.mpr]
    · exact Nat.zero_le 1
    · intro op hop
      simpa using (h op hop).ne
  · exact absurd heq (h op hop).ne

theorem ReadInv.quiet {c c' : TcpClientImpl σ} (hinv : ReadInv c) (h : Quiet c c') :
    ReadInv c' := by
  refine ⟨?_, ?_, ?_⟩
  · intro op hop
    rw [h.connection]
    exact hinv.old op (h.reads.subset hop)
  · rw [h.connection]
    exact h.reads.countP_le.trans hinv.one
  · intro op hop
    rw [h.connection, h.rbuf]
    exact hinv.header op (h.reads.subset hop)

theorem ReadInv.issues {c c' : TcpClientImpl σ} {req : ReadRequest} {handler : ReadHandler}
    (hdrained : Drained c) (h : Issues c c' req handler)
    (hheader : handler = .handleReadHeader → req = ⟨0, 16, 16⟩) : ReadInv c' := by
  have hmem : ∀ op ∈ c'.io.reads, op ∈ c.io.reads ∨
      op = ⟨c.io.connection, req.offset, req.length, handler⟩ := by
    intro op hop
    simpa using h.reads.subset hop
  refine ⟨?_, ?_, ?_⟩
  · intro op hop
    rw [h.connection]
    rcases hmem op hop with hold | rfl
    · exact (hdrained op hold).le
    · exact Nat.le_refl _
  · rw [h.connection]
    apply h.reads.countP_le.trans
    have hnone : c.io.reads.countP (·.connection = c.io.connection) = 0 := by
      rw [List.countP_eq_zero]
      intro op hop
      simpa using (hdrained op hop).ne
    rw [List.countP_append, hnone]
    simp
  · intro op hop hconn hhandler
    rw [h.connection] at hconn
    rcases hmem op hop with hold | rfl
    · exact absurd hconn (hdrained op hold).ne
    · obtain rfl := hheader hhandler
      exact ⟨rfl, rfl, h.rbuf⟩

theorem drained_eraseIdx {c : TcpClientImpl σ} (hinv : ReadInv c) {i : Nat} {op : ReadOp}
    (hop : c.io.reads[i]? = some op) (hconn : op.connection = c.io.connection) :
    Drained { c with io.reads := c.io.reads.eraseIdx i } := by
  obtain ⟨hi, hget⟩ := List.getElem?_eq_some_iff.mp hop
  have hperm := (List.getElem_cons_eraseIdx_perm hi).countP_eq (·.connection = c.io.connection)
  have hone := hinv.one
  rw [← hperm, List.countP_cons, if_pos (by simp [hget, hconn])] at hone
  have hzero : (c.io.reads.eraseIdx i).countP (·.connection = c.io.connection) = 0 := by omega
  intro op' hop'
  have hne : op'.connection ≠ c.io.connection := by
    simpa using List.countP_eq_zero.mp hzero op' hop'
  exact lt_of_le_of_ne (hinv.old op' (List.mem_of_mem_eraseIdx hop')) hne

/-! ## What a step does to the reads -/

inductive ReadStep (c : TcpClientImpl σ) (e : Event) (c' : TcpClientImpl σ) : Prop
  | quiet (hquiet : Quiet c c') (hnone : c.headerRead e = none)
  | dropped (hdrained : Drained c') (hissued : c'.issuedReads = c.issuedReads)
      (hnone : c.headerRead e = none)
  | header (c₁ : TcpClientImpl σ) (hdrained : Drained c₁)
      (hissued : c₁.issuedReads = c.issuedReads) (hissues : Issues c₁ c' ⟨0, 16, 16⟩ .handleReadHeader)
      (hnone : c.headerRead e = none)
  | body (c₁ : TcpClientImpl σ) (hdrained : Drained c₁)
      (hissued : c₁.issuedReads = c.issuedReads) (header : Bytes)
      (hissues : Issues c₁ c'
        ⟨16, (fullMsgLenOf header - kTotalHeadLen).toNat, (fullMsgLenOf header).toNat⟩
        .handleReadBody)
      (hsome : c.headerRead e = some header)

theorem readStep_opened (bus : Bus σ) {c : TcpClientImpl σ} (hinv : ReadInv c) :
    ReadStep c (.connected true)
      ({ c with io.connects := c.io.connects - 1 }.establish.handleConnect bus false) := by
  have hdrained : Drained ({ c with io.connects := c.io.connects - 1 }.establish) :=
    fun op hop => Nat.lt_succ_of_le (hinv.old op hop)
  exact .header _ hdrained rfl (Issues.handleConnect bus rfl) rfl

theorem readStep_readDone (bus : Bus σ) {c : TcpClientImpl σ} {i : Nat} {op : ReadOp}
    (hinv : ReadInv c) (hop : c.io.reads[i]? = some op)
    (hconn : op.connection = c.io.connection) (hlen : op.length ≤ c.io.inbox.length) :
    ReadStep c (.readDone i)
      (({ c with io.reads := c.io.reads.eraseIdx i }.takeInbox op).completeRead bus op.handler
        false) := by
  have hdrained := drained_eraseIdx hinv hop hconn
  have hmem : op ∈ c.io.reads := List.mem_of_getElem? hop
  by_cases hstopped : c.stopped = true
  · -- both handlers return at once
    have hnone : c.headerRead (.readDone i) = none := by simp [headerRead, hop, hstopped]
    cases hhandler : op.handler with
    | handleReadHeader =>
        simp only [completeRead, handleReadHeader, takeInbox, hstopped, if_true]
        exact .dropped hdrained rfl hnone
    | handleReadBody =>
        simp only [completeRead, handleReadBody, takeInbox, hstopped, if_true]
        exact .dropped hdrained rfl hnone
  · have hrun : c.stopped = false := by simpa using hstopped
    cases hhandler : op.handler with
    | handleReadHeader =>
        obtain ⟨hoffset, hlength, hrbuf⟩ := hinv.header op hmem hconn hhandler
        have htake : (c.io.inbox.take 16).length = 16 := by
          rw [List.length_take]
          omega
        have hfull : overwrite c.rbuf 0 (c.io.inbox.take 16) = c.io.inbox.take 16 :=
          overwrite_all (by rw [htake, hrbuf])
        let c₁ := takeInbox { c with io.reads := c.io.reads.eraseIdx i } op
        have hc₁ : c₁.rbuf = c.io.inbox.take 16 := by
          simp only [c₁, takeInbox, hoffset, hlength, hfull]
        have hissues := Issues.handleReadHeader bus (c := c₁) hrun
        rw [hc₁, (retrieveHeader_eq htake c₁.readMsg).1] at hissues
        exact .body c₁ hdrained rfl (c.io.inbox.take 16) hissues
          (by simp [headerRead, hop, hhandler, hrun, hlength])
    | handleReadBody =>
        let c₁ := takeInbox { c with io.reads := c.io.reads.eraseIdx i } op
        have hissues := Issues.handleReadBody bus (c := c₁) hrun
        exact .header c₁ hdrained rfl hissues (by simp [headerRead, hop, hhandler])

theorem headerRead_framed (c : TcpClientImpl σ) {e : Event} (he : e.isFramed = true) :
    c.headerRead e = none := by
  cases e with
  | readDone i => cases he
  | _ => rfl

theorem step_reads (bus : Bus σ) {c c' : TcpClientImpl σ} {e : Event} (hinv : ReadInv c)
    (hstep : step bus c e = some c') : ReadStep c e c' := by
  cases readerStep_of_step hstep with
  | framed he => exact .quiet ((Quiet.frame bus).step he hstep) (headerRead_framed c he)
  | readDone i op hop hconnection hlength =>
      exact readStep_readDone bus hinv hop hconnection hlength
  | opened hconnects => exact readStep_opened bus hinv

theorem step_readInv (bus : Bus σ) (c : TcpClientImpl σ) (e : Event) (c' : TcpClientImpl σ)
    (hinv : ReadInv c) (hstep : step bus c e = some c') : ReadInv c' := by
  cases step_reads bus hinv hstep with
  | quiet hquiet _ => exact hinv.quiet hquiet
  | dropped hdrained _ _ => exact .of_drained hdrained
  | header c₁ hdrained _ hissues _ => exact .issues hdrained hissues fun _ => rfl
  | body c₁ hdrained _ header hissues _ => exact .issues hdrained hissues nofun

/-- The body read stays inside `_rbuf` exactly if the subtraction did not wrap. -/
theorem bodyRead_inRange_iff (fullMsgLen : UInt32) :
    ReadRequest.InRange ⟨16, (fullMsgLen - kTotalHeadLen).toNat, fullMsgLen.toNat⟩ ↔
      kTotalHeadLen ≤ fullMsgLen := by
  have hlt : fullMsgLen.toNat < 2 ^ 32 := fullMsgLen.toNat_lt
  have hhead : kTotalHeadLen.toNat = 16 := rfl
  rw [ReadRequest.InRange, UInt32.toNat_sub, hhead, UInt32.le_iff_toNat_le, hhead]
  dsimp only
  omega

theorem step_readsInRange_iff (bus : Bus σ) (c : TcpClientImpl σ) (e : Event)
    (c' : TcpClientImpl σ) (hinv : ReadInv c) (hstep : step bus c e = some c') :
    c'.ReadsInRange ↔ c.ReadsInRange ∧ c.HeaderCountsItself e := by
  have hno (hnone : c.headerRead e = none) : c.HeaderCountsItself e := by
    intro header hsome
    rw [hnone] at hsome
    cases hsome
  cases step_reads bus hinv hstep with
  | quiet hquiet hnone => simp [ReadsInRange, hquiet.issued, hno hnone]
  | dropped _ hissued hnone => simp [ReadsInRange, hissued, hno hnone]
  | header c₁ _ hissued hissues hnone =>
      have hok : ReadRequest.InRange ⟨0, 16, 16⟩ := Nat.le_refl _
      simp [ReadsInRange, hissues.issued, hissued, hno hnone, or_imp, forall_and, hok]
  | body c₁ _ hissued header hissues hsome =>
      simp [ReadsInRange, HeaderCountsItself, hissues.issued, hissued, hsome, or_imp, forall_and,
        bodyRead_inRange_iff]

/-- In every run of the client, over any number of connections and with the bytes of the
server arriving in any pieces, all reads stay inside `_rbuf` if and only if every header that
`handleReadHeader` takes up announces at least sixteen bytes. -/
theorem readsInRange_iff (bus : Bus σ) (cfg : ClientConfig) (sub : σ) {es : List Event}
    {c : TcpClientImpl σ} (hrun : run (step bus) (init cfg sub).start es = some c) :
    c.ReadsInRange ↔ AllSteps (step bus) HeaderCountsItself (init cfg sub).start es := by
  have hinit : ReadInv (init cfg sub).start := .of_drained nofun
  have hnone : (init cfg sub).start.ReadsInRange := by
    intro req hreq
    simp [issuedReads, start, asyncConnect, log, init, Trace.readRequest] at hreq
  rw [run_iff_allSteps (step_readInv bus) (step_readsInRange_iff bus) hinit hrun]
  exact and_iff_right hnone

/-! ## A short header -/

def headerEvents (len : UInt8) : List Event :=
  [.connected true, .arrive [1, 1, 1, 1, len, 0, 0, 0, 0xDC, 7, 0, 0, 0, 0, 0, 0], .readDone 0]

theorem readsInRange_of_long_header :
    ∃ c, run (step idleBus) (init sampleConfig ()).start (headerEvents 18) = some c ∧
      c.ReadsInRange := by
  have hsome : (run (step idleBus) (init sampleConfig ()).start (headerEvents 18)).isSome := by
    decide +kernel
  obtain ⟨c, hrun⟩ := Option.isSome_iff_exists.mp hsome
  refine ⟨c, hrun, (readsInRange_iff idleBus sampleConfig () hrun).mpr ?_⟩
  decide +kernel

/-- A header that announces 8 bytes makes the client request 4294967288 bytes, to be stored
behind the end of an 8-byte buffer. -/
theorem readsInRange_fails_of_short_header : ¬ ∀ (σ : Type) (bus : Bus σ) (cfg : ClientConfig)
    (sub : σ) (es : List Event) (c : TcpClientImpl σ),
    run (step bus) (init cfg sub).start es = some c → c.ReadsInRange := by
  intro h
  have hbad : ∃ c ∈ run (step idleBus) (init sampleConfig ()).start (headerEvents 8),
      ¬ c.ReadsInRange := by
    decide +kernel
  obtain ⟨c, hrun, hrange⟩ := hbad
  exact hrange (h Unit idleBus sampleConfig () _ c hrun)

end CloudEdgePush.Client.TcpClientImpl
