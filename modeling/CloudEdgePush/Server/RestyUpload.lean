import CloudEdgePush.Lib.LuaPattern
import CloudEdgePush.Lib.Until
import CloudEdgePush.Server.MessagePacket

/-!
# `resty/upload.lua`

A multipart body is read from the request's socket with two iterators of `sock:receiveuntil`, one
up to the boundary and one up to the end of a line.  An iterator that is asked for `size` bytes
returns the data before its pattern in pieces (`Cut` says how large); the call after the one that
has seen the pattern returns `nil`.  What may be the beginning of the pattern is held back.
-/

namespace CloudEdgePush.Server.RestyUpload

open CloudEdgePush.Lib CloudEdgePush.Lib.LuaPattern CloudEdgePush.Lib.Until

/-! ## `sock:receiveuntil` -/

/-- How many of the bytes before the pattern a call for `size` bytes returns: all of them if they
are fewer, else at least `size`. -/
structure Cut where
  cut : Nat → List UInt8 → Nat
  short : ∀ size data, data.length < size → cut size data = data.length
  long : ∀ size data, size ≤ data.length → size ≤ cut size data ∧ cut size data ≤ data.length

def Cut.exact : Cut where
  cut size data := min size data.length
  short size data h := Nat.min_eq_right h.le
  long size data h := by rw [Nat.min_eq_left h]; exact ⟨le_rfl, h⟩

structure Reader where
  pattern : List UInt8
  /-- The last call has seen the pattern. -/
  done : Bool

inductive Chunk
  | data (bytes : List UInt8)
  | finished
  | failed (err : List UInt8)

/-- What cannot be the beginning of the pattern: the rest is held back until more has come. -/
def ready (pattern inbox : List UInt8) : List UInt8 :=
  inbox.take (inbox.length - ((inbox.tails.find? (· <+: pattern)).getD []).length)

variable (cut : Cut)

def Reader.call (r : Reader) (size : Nat) (sock : Sock) : Chunk × Reader × Sock :=
  if r.done then (.finished, { r with done := false }, sock)
  else
    match splitUntil r.pattern sock.inbox with
    | some (before, after) =>
        let n := cut.cut size before
        if n < size then (.data before, { r with done := true }, { sock with inbox := after })
        else (.data (before.take n), r, { sock with inbox := sock.inbox.drop n })
    | none =>
        let before := ready r.pattern sock.inbox
        let n := cut.cut size before
        if n < size then (.failed (text sock.err), r, { sock with inbox := [] })
        else (.data (before.take n), r, { sock with inbox := sock.inbox.drop n })

/-! ## The form -/

def MAX_LINE_SIZE : Nat := 512

inductive State
  | begin
  | readingHeader
  | readingBody
  | eof
deriving DecidableEq, Repr

structure Form where
  sock : Sock
  size : Nat
  read2boundary : Reader
  readLine : Reader
  boundary : List UInt8
  state : State

/-- What `read` returns: a piece of the body, or `nil` with an error, which may be `nil` too. -/
inductive Token
  | header (key value line : List UInt8)
  /-- A header without a key. -/
  | line (line : List UInt8)
  | body (chunk : List UInt8)
  | partEnd
  | eof
  | failed (err : Option (List UInt8))
  | raised

def dashes : List UInt8 := [45, 45]

def crlf : List UInt8 := [13, 10]

/-- `;%s*boundary="([^"]+)"`. -/
def quotedBoundary : List Item :=
  literal ";" ++ [⟨isSpace, .star, false⟩] ++ literal "boundary=\"" ++ [⟨(· != 34), .plus, true⟩] ++
    literal "\""

/-- `;%s*boundary=([^",;]+)`. -/
def plainBoundary : List Item :=
  literal ";" ++ [⟨isSpace, .star, false⟩] ++ literal "boundary=" ++
    [⟨fun b => b != 34 && b != 44 && b != 59, .plus, true⟩]

/-- `get_boundary`, of the first Content-Type header. -/
def getBoundary (header : Option (List UInt8)) : Option (List UInt8) := do
  let header ← header
  let captures ← (find quotedBoundary header).or (find plainBoundary header)
  captures.head?

def new (boundary : List UInt8) (sock : Sock) (size : Nat) : Form where
  sock := sock
  size := size
  read2boundary := ⟨dashes ++ boundary, false⟩
  readLine := ⟨crlf, false⟩
  boundary := boundary
  state := .begin

namespace Form

def callLine (f : Form) (size : Nat) : Chunk × Form :=
  let (chunk, readLine, sock) := f.readLine.call cut size f.sock
  (chunk, { f with readLine := readLine, sock := sock })

def callBoundary (f : Form) : Chunk × Form :=
  let (chunk, read2boundary, sock) := f.read2boundary.call cut f.size f.sock
  (chunk, { f with read2boundary := read2boundary, sock := sock })

def tooLong (line dummy : List UInt8) : List UInt8 :=
  text "line too long: " ++ line ++ dummy ++ text "..."

/-- `discard_line`; the error may be `nil`. -/
def discardLine (f : Form) : Except (Option (List UInt8)) Unit × Form :=
  match f.callLine cut MAX_LINE_SIZE with
  | (.finished, f) => (.error none, f)
  | (.failed err, f) => (.error (some err), f)
  | (.data line, f) =>
      match f.callLine cut 1 with
      | (.data dummy, f) => (.error (some (tooLong line dummy)), f)
      | (.failed err, f) => (.error (some err), f)
      | (.finished, f) => (.ok (), f)

/-- `discard_rest`: it receives until the socket has no more. -/
def discardRest (f : Form) : Except (List UInt8) Unit × Form :=
  let f := { f with sock.inbox := [] }
  if f.sock.err = "closed" then (.ok (), f) else (.error (text f.sock.err), f)

def readBodyPart (f : Form) : Token × Form :=
  match f.callBoundary cut with
  | (.failed err, f) => (.failed (some err), f)
  | (.data chunk, f) => (.body chunk, f)
  | (.finished, f) =>
      let (data, sock) := f.sock.receive 2
      let f := { f with sock := sock }
      if data = some dashes then
        match f.discardRest with
        | (.error err, f) => (.failed (some err), f)
        | (.ok (), f) => (.partEnd, { f with state := .eof })
      else if data = some crlf then (.partEnd, { f with state := .readingHeader })
      else
        match f.discardLine cut with
        | (.error err, f) => (.failed err, f)
        | (.ok (), f) => (.partEnd, { f with state := .readingHeader })

/-- `([^: \t]+)%s*:%s*(.+)`. -/
def headerPattern : List Item :=
  [⟨fun b => b != 58 && b != 32 && b != 9, .plus, true⟩, ⟨isSpace, .star, false⟩,
    ⟨(· == 58), .once, false⟩, ⟨isSpace, .star, false⟩, ⟨fun _ => true, .plus, true⟩]

def headerOf (line : List UInt8) : Token :=
  match find headerPattern line with
  | some [key, value] => .header key value line
  | _ => .line line

/-- `read_header`.  Without a line it raises, unless the second call fails. -/
def readHeader (f : Form) : Token × Form :=
  match f.callLine cut MAX_LINE_SIZE with
  | (.failed err, f) => (.failed (some err), f)
  | (.finished, f) =>
      match f.callLine cut 1 with
      | (.failed err, f) => (.failed (some err), f)
      | (_, f) => (.raised, f)
  | (.data line, f) =>
      match f.callLine cut 1 with
      | (.data dummy, f) => (.failed (some (tooLong line dummy)), f)
      | (.failed err, f) => (.failed (some err), f)
      | (.finished, f) =>
          if line = [] then { f with state := .readingBody }.readBodyPart cut
          else (headerOf line, f)

/-- The loop of `read_preamble`: it ends when a call returns no data, for whatever reason. -/
def discardPreamble : Nat → Form → Option Form
  | 0, _ => none
  | fuel + 1, f =>
      match f.callBoundary cut with
      | (.data _, f) => discardPreamble fuel f
      | (_, f) => some f

def ahead (f : Form) : Nat := 2 * f.sock.inbox.length + if f.read2boundary.done then 0 else 1

def left (f : Form) : Nat := f.ahead + if f.state = .eof then 0 else 2

def readPreamble (f : Form) : Option (Token × Form) :=
  (discardPreamble cut (f.ahead + 1) f).map fun f =>
    match f.discardLine cut with
    | (.error err, f) => (.failed err, f)
    | (.ok (), f) =>
        { f with
          read2boundary := ⟨crlf ++ dashes ++ f.boundary, false⟩
          state := .readingHeader }.readHeader cut

/-- `read`; `none` is a loop that has not ended. -/
def read (f : Form) : Option (Token × Form) :=
  match f.state with
  | .begin => f.readPreamble cut
  | .readingHeader => some (f.readHeader cut)
  | .readingBody => some (f.readBodyPart cut)
  | .eof => some (.eof, f)

end Form

/-! ## What an iterator returns -/

section Calls

variable {r : Reader} (size : Nat) {sock : Sock} {before after : List UInt8}

inductive Called (r : Reader) (size : Nat) (sock : Sock) (before after : List UInt8) :
    Chunk × Reader × Sock → Prop
  | whole (hsize : before.length < size) :
      Called r size sock before after
        (.data before, { r with done := true }, { sock with inbox := after })
  | piece (n : Nat) (hn : n ≤ before.length) (hsize : size ≤ n) :
      Called r size sock before after
        (.data (before.take n), r, { sock with inbox := sock.inbox.drop n })

theorem called (hdone : r.done = false)
    (hsplit : splitUntil r.pattern sock.inbox = some (before, after)) :
    Called r size sock before after (r.call cut size sock) := by
  unfold Reader.call
  rw [if_neg (by simp [hdone]), hsplit]
  dsimp only
  rcases Nat.lt_or_ge before.length size with hlt | hge
  · rw [cut.short size before hlt, if_pos hlt]
    exact .whole hlt
  · obtain ⟨hsize, hn⟩ := cut.long size before hge
    rw [if_neg (Nat.not_lt.mpr hsize)]
    exact .piece _ hn hsize

/-- A stream without the pattern: no call has seen it. -/
inductive Starved (r : Reader) (size : Nat) (sock : Sock) : Chunk × Reader × Sock → Prop
  | failed : Starved r size sock (.failed (text sock.err), r, { sock with inbox := [] })
  | piece (bytes : List UInt8) (n : Nat) (hn : n ≤ sock.inbox.length) (hsize : size ≤ n) :
      Starved r size sock (.data bytes, r, { sock with inbox := sock.inbox.drop n })

theorem starved (hdone : r.done = false) (hsplit : splitUntil r.pattern sock.inbox = none) :
    Starved r size sock (r.call cut size sock) := by
  unfold Reader.call
  rw [if_neg (by simp [hdone]), hsplit]
  dsimp only
  rcases Nat.lt_or_ge (ready r.pattern sock.inbox).length size with hlt | hge
  · rw [cut.short size _ hlt, if_pos hlt]
    exact .failed
  · obtain ⟨hsize, hn⟩ := cut.long size _ hge
    rw [if_neg (Nat.not_lt.mpr hsize)]
    exact .piece _ _ (hn.trans (List.length_take_le' _ _)) hsize

theorem call_of_done (hdone : r.done = true) :
    r.call cut size sock = (.finished, { r with done := false }, sock) := if_pos hdone

end Calls

namespace Form

variable {f f' : Form}

/-! ## Lines -/

def BetweenLines (f : Form) : Prop := f.readLine = ⟨crlf, false⟩

def withInbox (f : Form) (inbox : List UInt8) : Form := { f with sock.inbox := inbox }

theorem splitUntil_line {line rest : List UInt8} (hline : ¬crlf <:+: line) :
    splitUntil crlf (line ++ crlf ++ rest) = some (line, rest) :=
  splitUntil_append (show crlf = 13 :: [10] from rfl) (by decide) hline rest

/-- A line that is not too long is read by one call, and the next one returns `nil`. -/
theorem callLine_line (hf : f.BetweenLines) {line rest : List UInt8}
    (hinbox : f.sock.inbox = line ++ crlf ++ rest) (hline : ¬crlf <:+: line)
    (hshort : line.length < MAX_LINE_SIZE) :
    ∃ f₁, f.callLine cut MAX_LINE_SIZE = (.data line, f₁) ∧
      f₁.callLine cut 1 = (.finished, f.withInbox rest) := by
  have hreader : f.readLine = ⟨crlf, false⟩ := hf
  have hsplit : splitUntil f.readLine.pattern f.sock.inbox = some (line, rest) := by
    rw [hreader, hinbox]
    exact splitUntil_line hline
  have hcalled := called cut MAX_LINE_SIZE (congrArg Reader.done hreader) hsplit
  unfold callLine
  generalize f.readLine.call cut MAX_LINE_SIZE f.sock = result at hcalled
  cases hcalled with
  | whole _ =>
      refine ⟨_, rfl, ?_⟩
      dsimp only
      rw [call_of_done cut 1 rfl]
      have hsame : { f.readLine with done := false } = f.readLine := by rw [hreader]
      dsimp only [withInbox]
      rw [hsame]
  | piece n hn hsize => omega

theorem discardLine_line (hf : f.BetweenLines) {line rest : List UInt8}
    (hinbox : f.sock.inbox = line ++ crlf ++ rest) (hline : ¬crlf <:+: line)
    (hshort : line.length < MAX_LINE_SIZE) : f.discardLine cut = (.ok (), f.withInbox rest) := by
  obtain ⟨f₁, hfirst, hsecond⟩ := callLine_line cut hf hinbox hline hshort
  unfold discardLine
  rw [hfirst]
  dsimp only
  rw [hsecond]

theorem readHeader_line (hf : f.BetweenLines) {line rest : List UInt8}
    (hinbox : f.sock.inbox = line ++ crlf ++ rest) (hline : ¬crlf <:+: line)
    (hshort : line.length < MAX_LINE_SIZE) (hne : line ≠ []) :
    f.readHeader cut = (headerOf line, f.withInbox rest) := by
  obtain ⟨f₁, hfirst, hsecond⟩ := callLine_line cut hf hinbox hline hshort
  unfold readHeader
  rw [hfirst]
  dsimp only
  rw [hsecond]
  exact if_neg hne

theorem readHeader_blank (hf : f.BetweenLines) {rest : List UInt8}
    (hinbox : f.sock.inbox = crlf ++ rest) :
    f.readHeader cut = ({ f.withInbox rest with state := .readingBody }.readBodyPart cut) := by
  obtain ⟨f₁, hfirst, hsecond⟩ :=
    callLine_line cut hf (show f.sock.inbox = [] ++ crlf ++ rest from hinbox) (by decide) (by decide)
  unfold readHeader
  rw [hfirst]
  dsimp only
  rw [hsecond]
  exact if_pos rfl

def NoLine (f : Form) : Prop := f.BetweenLines ∧ splitUntil crlf f.sock.inbox = none

theorem callLine_noLine (hf : f.NoLine) (n : Nat) :
    (∃ err f', f.callLine cut n = (.failed err, f')) ∨
      ∃ bytes f', f'.NoLine ∧ f.callLine cut n = (.data bytes, f') := by
  obtain ⟨hreader, hnone⟩ := hf
  have hreader' : f.readLine = ⟨crlf, false⟩ := hreader
  have hstarved : Starved f.readLine n f.sock (f.readLine.call cut n f.sock) :=
    starved cut n (congrArg Reader.done hreader') (by rw [hreader']; exact hnone)
  unfold callLine
  generalize f.readLine.call cut n f.sock = result at hstarved
  cases hstarved with
  | failed => exact .inl ⟨_, _, rfl⟩
  | piece bytes m hm hsize =>
      refine .inr ⟨bytes, _, ?_, rfl⟩
      exact ⟨hreader, splitUntil_drop hnone m⟩

theorem discardLine_noLine (hf : f.NoLine) :
    ∃ err f', f.discardLine cut = (.error (some err), f') := by
  unfold discardLine
  rcases callLine_noLine cut hf MAX_LINE_SIZE with ⟨err, f₁, hfirst⟩ | ⟨line, f₁, hf₁, hfirst⟩
  · rw [hfirst]
    exact ⟨_, _, rfl⟩
  · rw [hfirst]
    rcases callLine_noLine cut hf₁ 1 with ⟨err, f₂, hsecond⟩ | ⟨dummy, f₂, -, hsecond⟩
    · dsimp only
      rw [hsecond]
      exact ⟨_, _, rfl⟩
    · dsimp only
      rw [hsecond]
      exact ⟨_, _, rfl⟩

theorem readHeader_noLine (hf : f.NoLine) :
    ∃ err f', f.readHeader cut = (.failed (some err), f') := by
  unfold readHeader
  rcases callLine_noLine cut hf MAX_LINE_SIZE with ⟨err, f₁, hfirst⟩ | ⟨line, f₁, hf₁, hfirst⟩
  · rw [hfirst]
    exact ⟨_, _, rfl⟩
  · rw [hfirst]
    rcases callLine_noLine cut hf₁ 1 with ⟨err, f₂, hsecond⟩ | ⟨dummy, f₂, -, hsecond⟩
    · dsimp only
      rw [hsecond]
      exact ⟨_, _, rfl⟩
    · dsimp only
      rw [hsecond]
      exact ⟨_, _, rfl⟩

theorem headerOf_pair {key value : List UInt8} {v : UInt8} (hkey : key ≠ [])
    (hcolon : ∀ b ∈ key, (b != 58 && b != 32 && b != 9) = true) (hv : isSpace v = false) :
    headerOf (key ++ 58 :: 32 :: v :: value) =
      .header key (v :: value) (key ++ 58 :: 32 :: v :: value) := by
  have hmatch : matchHere headerPattern (key ++ 58 :: 32 :: v :: value) =
      some [key, v :: value] := by
    obtain ⟨b, key, rfl⟩ := List.exists_cons_of_ne_nil hkey
    obtain ⟨hb, hkey⟩ := List.forall_mem_cons.mp hcolon
    rw [List.cons_append, headerPattern, matchHere_plus, if_pos hb]
    refine expand_run hkey (by simp) [b] ?_
    have hspace : isSpace 58 = false := by decide
    have hblank : isSpace 32 = true := by decide
    rw [matchHere_star, expand, hspace, if_neg Bool.false_ne_true, matchHere_once,
      if_pos (by decide), matchHere_star, expand, hblank, if_pos rfl, expand, hv,
      if_neg Bool.false_ne_true, matchHere_rest]
    rfl
  rw [headerOf, find_of_here hmatch]

/-! ## Bodies -/

structure InBody (f : Form) (pattern : List UInt8) : Prop where
  state : f.state = .readingBody
  reader : f.read2boundary = ⟨pattern, false⟩

theorem readBodyPart_body {pattern body rest : List UInt8} (hf : f.InBody pattern)
    (hsplit : splitUntil pattern f.sock.inbox = some (body, rest)) :
    (f.readBodyPart cut = (.body body,
        { f.withInbox rest with read2boundary := ⟨pattern, true⟩ })) ∨
      ∃ n, f.size ≤ n ∧ n ≤ body.length ∧
        f.readBodyPart cut = (.body (body.take n), f.withInbox (f.sock.inbox.drop n)) := by
  have hreader := hf.reader
  have hfound : splitUntil f.read2boundary.pattern f.sock.inbox = some (body, rest) := by
    rw [hreader]
    exact hsplit
  have hcalled := called cut f.size (congrArg Reader.done hreader) hfound
  unfold readBodyPart callBoundary
  generalize f.read2boundary.call cut f.size f.sock = result at hcalled
  cases hcalled with
  | whole hsize =>
      left
      dsimp only [withInbox]
      rw [hreader]
  | piece n hn hsize => exact .inr ⟨n, hsize, hn, rfl⟩

theorem readBodyPart_starved {pattern : List UInt8} (hf : f.InBody pattern)
    (hnone : splitUntil pattern f.sock.inbox = none) :
    (∃ err f', f.readBodyPart cut = (.failed (some err), f')) ∨
      ∃ bytes n, f.size ≤ n ∧ n ≤ f.sock.inbox.length ∧
        f.readBodyPart cut = (.body bytes, f.withInbox (f.sock.inbox.drop n)) := by
  have hreader := hf.reader
  have hstarved : Starved f.read2boundary f.size f.sock (f.read2boundary.call cut f.size f.sock) :=
    starved cut f.size (congrArg Reader.done hreader) (by rw [hreader]; exact hnone)
  unfold readBodyPart callBoundary
  generalize f.read2boundary.call cut f.size f.sock = result at hstarved
  cases hstarved with
  | failed => exact .inl ⟨_, _, rfl⟩
  | piece bytes n hn hsize => exact .inr ⟨bytes, n, hsize, hn, rfl⟩

theorem readBodyPart_short (hdone : f.read2boundary.done = true) (hline : f.BetweenLines)
    (hshort : f.sock.inbox.length < 2) :
    ∃ err f', f.readBodyPart cut = (.failed (some err), f') := by
  have hreceive : f.sock.receive 2 = (none, { f.sock with inbox := [] }) := by
    rw [Sock.receive, if_neg (by omega)]
  have hnoLine : NoLine { f with
      sock.inbox := []
      read2boundary := { f.read2boundary with done := false } } := ⟨hline, rfl⟩
  obtain ⟨err, f', hdiscard⟩ := discardLine_noLine cut hnoLine
  refine ⟨err, f', ?_⟩
  unfold readBodyPart callBoundary
  rw [call_of_done cut f.size hdone]
  dsimp only
  rw [hreceive]
  dsimp only
  rw [if_neg (by decide), if_neg (by decide), hdiscard]

/-- The call after the one that has seen a boundary, when another part follows. -/
theorem readBodyPart_next {rest : List UInt8} (hdone : f.read2boundary.done = true)
    (hinbox : f.sock.inbox = crlf ++ rest) :
    f.readBodyPart cut = (.partEnd, { f.withInbox rest with
      read2boundary := { f.read2boundary with done := false }, state := .readingHeader }) := by
  have hreceive : f.sock.receive 2 = (some crlf, { f.sock with inbox := rest }) := by
    rw [Sock.receive, hinbox, if_pos (by simp [crlf])]
    rfl
  unfold readBodyPart callBoundary
  rw [call_of_done cut f.size hdone]
  dsimp only
  rw [hreceive]
  rfl

theorem readBodyPart_last {rest : List UInt8} (hdone : f.read2boundary.done = true)
    (hinbox : f.sock.inbox = dashes ++ rest) (hclosed : f.sock.err = "closed") :
    f.readBodyPart cut = (.partEnd, { f.withInbox [] with
      read2boundary := { f.read2boundary with done := false }, state := .eof }) := by
  have hreceive : f.sock.receive 2 = (some dashes, { f.sock with inbox := rest }) := by
    rw [Sock.receive, hinbox, if_pos (by simp [dashes])]
    rfl
  unfold readBodyPart callBoundary
  rw [call_of_done cut f.size hdone]
  dsimp only
  rw [hreceive]
  dsimp only
  rw [if_pos rfl, discardRest, if_pos hclosed]
  rfl

end Form

/-! ## Progress -/

inductive CallProgress (r : Reader) (sock : Sock) : Chunk × Reader × Sock → Prop
  | seen (bytes : List UInt8) (sock' : Sock) (hdone : r.done = false)
      (hinbox : sock'.inbox.length + r.pattern.length ≤ sock.inbox.length) :
      CallProgress r sock (.data bytes, { r with done := true }, sock')
  | piece (bytes : List UInt8) (sock' : Sock) (hdone : r.done = false)
      (hinbox : sock'.inbox.length < sock.inbox.length) :
      CallProgress r sock (.data bytes, r, sock')
  | finished (hdone : r.done = true) :
      CallProgress r sock (.finished, { r with done := false }, sock)
  | failed (err : List UInt8) : CallProgress r sock (.failed err, r, { sock with inbox := [] })

theorem callProgress (r : Reader) {size : Nat} (hsize : 0 < size) (sock : Sock) :
    CallProgress r sock (r.call cut size sock) := by
  have hdrop {n : Nat} (hn : size ≤ n) (hle : n ≤ sock.inbox.length) :
      (sock.inbox.drop n).length < sock.inbox.length := by
    rw [List.length_drop]
    omega
  cases hdone : r.done with
  | true =>
      rw [call_of_done cut size hdone]
      exact .finished hdone
  | false =>
      cases hsplit : splitUntil r.pattern sock.inbox with
      | none =>
          have hstarved := starved cut size hdone hsplit
          generalize r.call cut size sock = result at hstarved
          cases hstarved with
          | failed => exact .failed _
          | piece bytes n hn hle => exact .piece _ _ hdone (hdrop hle hn)
      | some parts =>
          have hinbox := congrArg List.length (splitUntil_sound hsplit)
          rw [List.length_append, List.length_append] at hinbox
          have hcalled := called cut size hdone hsplit
          generalize r.call cut size sock = result at hcalled
          cases hcalled with
          | whole _ =>
              refine .seen _ _ hdone ?_
              dsimp only
              omega
          | piece n hn hle => exact .piece _ _ hdone (hdrop hle (by omega))

def Token.goesOn : Token → Bool
  | .header _ _ _ | .line _ | .body _ | .partEnd => true
  | _ => false

namespace Form

variable {f f' f₁ f₂ : Form} {t : Token}

structure Sane (f : Form) : Prop where
  pattern : f.readLine.pattern = crlf
  size : 0 < f.size

structure LineRead (f f' : Form) : Prop where
  pattern : f'.readLine.pattern = f.readLine.pattern
  size : f'.size = f.size
  read2boundary : f'.read2boundary = f.read2boundary
  state : f'.state = f.state
  inbox : f'.sock.inbox.length + 2 ≤ f.sock.inbox.length

theorem LineRead.sane (h : LineRead f f') (hf : f.Sane) : f'.Sane :=
  ⟨h.pattern.trans hf.pattern, h.size ▸ hf.size⟩

/-- Only a call that has seen the end of the line is followed by one that returns `nil`. -/
theorem lineRead_of_calls (hf : f.Sane) {line : List UInt8}
    (hfirst : f.callLine cut MAX_LINE_SIZE = (.data line, f₁))
    (hsecond : f₁.callLine cut 1 = (.finished, f₂)) : LineRead f f₂ := by
  have hprogress := callProgress cut f.readLine (show 0 < MAX_LINE_SIZE by decide) f.sock
  unfold callLine at hfirst
  generalize f.readLine.call cut MAX_LINE_SIZE f.sock = result at hfirst hprogress
  have hnot (r : Reader) (sock : Sock) (hdone : r.done = false) :
      ∀ r' sock', r.call cut 1 sock ≠ (.finished, r', sock') := by
    intro r' sock' hcall
    have hprogress := callProgress cut r (show 0 < 1 by decide) sock
    rw [hcall] at hprogress
    cases hprogress with
    | finished h =>
        rw [hdone] at h
        cases h
  cases hprogress with
  | seen bytes sock' hdone hinbox =>
      obtain ⟨-, rfl⟩ := Prod.mk.inj hfirst
      unfold callLine at hsecond
      dsimp only at hsecond
      rw [call_of_done cut 1 rfl] at hsecond
      obtain ⟨-, rfl⟩ := Prod.mk.inj hsecond
      rw [hf.pattern] at hinbox
      exact ⟨rfl, rfl, rfl, rfl, hinbox⟩
  | piece bytes sock' hdone hinbox =>
      obtain ⟨-, rfl⟩ := Prod.mk.inj hfirst
      have hcall := hnot f.readLine sock' hdone
      unfold callLine at hsecond
      dsimp only at hsecond
      generalize f.readLine.call cut 1 sock' = result at hcall hsecond
      obtain ⟨chunk, r', sock''⟩ := result
      obtain ⟨rfl, -⟩ := Prod.mk.inj hsecond
      exact absurd rfl (hcall r' sock'')
  | finished hdone => cases hfirst
  | failed err => cases hfirst

theorem lineRead_discardLine (hf : f.Sane) (h : f.discardLine cut = (.ok (), f')) :
    LineRead f f' := by
  unfold discardLine at h
  split at h
  · cases h
  · cases h
  · rename_i line f₁ hfirst
    split at h
    · cases h
    · cases h
    · rename_i f₂ hsecond
      obtain ⟨-, rfl⟩ := Prod.mk.inj h
      exact lineRead_of_calls cut hf hfirst hsecond

theorem length_receive_le (sock : Sock) (n : Nat) :
    (sock.receive n).2.inbox.length ≤ sock.inbox.length := by
  unfold Sock.receive
  split
  · rw [List.length_drop]
    exact Nat.sub_le _ _
  · exact Nat.zero_le _

theorem received_two {sock : Sock} (h : (sock.receive 2).1 = some crlf) :
    (sock.receive 2).2.inbox.length + 2 = sock.inbox.length := by
  unfold Sock.receive at h ⊢
  split at h
  · rename_i hle
    rw [if_pos hle, List.length_drop]
    omega
  · cases h

theorem progress_readBodyPart (hf : f.Sane) (hstate : f.state ≠ .eof)
    (h : f.readBodyPart cut = (t, f')) (ht : t.goesOn = true) : f'.Sane ∧ f'.left < f.left := by
  have hprogress := callProgress cut f.read2boundary hf.size f.sock
  unfold left ahead
  rw [if_neg hstate]
  unfold readBodyPart callBoundary at h
  generalize f.read2boundary.call cut f.size f.sock = result at h hprogress
  cases hprogress with
  | seen bytes sock' hdone hinbox =>
      obtain ⟨rfl, rfl⟩ := Prod.mk.inj h
      refine ⟨⟨hf.pattern, hf.size⟩, ?_⟩
      dsimp only
      rw [if_neg hstate, hdone, if_pos rfl, if_neg Bool.false_ne_true]
      omega
  | piece bytes sock' hdone hinbox =>
      obtain ⟨rfl, rfl⟩ := Prod.mk.inj h
      refine ⟨⟨hf.pattern, hf.size⟩, ?_⟩
      dsimp only
      rw [if_neg hstate]
      omega
  | failed err =>
      obtain ⟨rfl, -⟩ := Prod.mk.inj h
      cases ht
  | finished hdone =>
      have hreceived := length_receive_le f.sock 2
      rw [hdone, if_pos rfl]
      dsimp only at h
      split at h
      · unfold discardRest at h
        dsimp only at h
        split at h
        · obtain ⟨rfl, -⟩ := Prod.mk.inj h
          cases ht
        · rename_i hrest
          split at hrest
          · obtain ⟨-, rfl⟩ := Prod.mk.inj hrest
            obtain ⟨-, rfl⟩ := Prod.mk.inj h
            refine ⟨⟨hf.pattern, hf.size⟩, ?_⟩
            dsimp only
            rw [if_pos rfl, if_neg Bool.false_ne_true, List.length_nil]
            omega
          · cases hrest
      · split at h
        · rename_i hcrlf
          obtain ⟨-, rfl⟩ := Prod.mk.inj h
          refine ⟨⟨hf.pattern, hf.size⟩, ?_⟩
          have htwo := received_two hcrlf
          dsimp only
          rw [if_neg Bool.false_ne_true, if_neg (by decide)]
          omega
        · split at h
          · obtain ⟨rfl, -⟩ := Prod.mk.inj h
            cases ht
          · rename_i f₁ hline
            obtain ⟨-, rfl⟩ := Prod.mk.inj h
            have hsane : Sane { f with
                sock := (f.sock.receive 2).2
                read2boundary := { f.read2boundary with done := false } } := ⟨hf.pattern, hf.size⟩
            have hread := lineRead_discardLine cut hsane hline
            have hinbox := hread.inbox
            dsimp only at hinbox
            refine ⟨⟨hread.pattern.trans hf.pattern, hread.size ▸ hf.size⟩, ?_⟩
            dsimp only
            rw [hread.read2boundary, if_neg Bool.false_ne_true, if_neg (by decide)]
            omega

theorem progress_readHeader (hf : f.Sane) (hstate : f.state ≠ .eof)
    (h : f.readHeader cut = (t, f')) (ht : t.goesOn = true) : f'.Sane ∧ f'.left < f.left := by
  unfold readHeader at h
  split at h
  · obtain ⟨rfl, -⟩ := Prod.mk.inj h
    cases ht
  · split at h
    · obtain ⟨rfl, -⟩ := Prod.mk.inj h
      cases ht
    · obtain ⟨rfl, -⟩ := Prod.mk.inj h
      cases ht
  · rename_i line f₁ hfirst
    split at h
    · obtain ⟨rfl, -⟩ := Prod.mk.inj h
      cases ht
    · obtain ⟨rfl, -⟩ := Prod.mk.inj h
      cases ht
    · rename_i f₂ hsecond
      have hread := lineRead_of_calls cut hf hfirst hsecond
      have hsane := hread.sane hf
      have hless : 2 * f₂.sock.inbox.length + (if f₂.read2boundary.done then 0 else 1) + 2 <
          f.left := by
        have hinbox := hread.inbox
        rw [left, ahead, if_neg hstate, hread.read2boundary]
        omega
      split at h
      · have hsane₃ : Sane { f₂ with state := .readingBody } := ⟨hsane.pattern, hsane.size⟩
        obtain ⟨hsane', hleft⟩ := progress_readBodyPart cut hsane₃ State.noConfusion h ht
        exact ⟨hsane', hleft.trans hless⟩
      · obtain ⟨-, rfl⟩ := Prod.mk.inj h
        have hstate₂ : f₂.state ≠ .eof := by
          rw [hread.state]
          exact hstate
        refine ⟨hsane, ?_⟩
        unfold left ahead at hless ⊢
        rw [if_neg hstate₂]
        exact hless

theorem discardPreamble_spec {fuel : Nat} (hf : f.Sane)
    (h : discardPreamble cut fuel f = some f') :
    f'.Sane ∧ f'.state = f.state ∧ f'.sock.inbox.length ≤ f.sock.inbox.length := by
  induction fuel generalizing f with
  | zero => cases h
  | succ fuel ih =>
      have hprogress := callProgress cut f.read2boundary hf.size f.sock
      unfold discardPreamble callBoundary at h
      have hsane (r : Reader) (sock : Sock) :
          Sane { f with read2boundary := r, sock := sock } := ⟨hf.pattern, hf.size⟩
      generalize f.read2boundary.call cut f.size f.sock = result at h hprogress
      cases hprogress with
      | seen bytes sock' hdone hinbox =>
          obtain ⟨hsane', hstate, hle⟩ := ih (hsane _ _) h
          exact ⟨hsane', hstate, hle.trans ((Nat.le_add_right _ _).trans hinbox)⟩
      | piece bytes sock' hdone hinbox =>
          obtain ⟨hsane', hstate, hle⟩ := ih (hsane _ _) h
          exact ⟨hsane', hstate, hle.trans hinbox.le⟩
      | finished hdone =>
          obtain rfl := Option.some.inj h
          exact ⟨⟨hf.pattern, hf.size⟩, rfl, le_rfl⟩
      | failed err =>
          obtain rfl := Option.some.inj h
          exact ⟨⟨hf.pattern, hf.size⟩, rfl, Nat.zero_le _⟩

/-- Without a boundary the preamble is the whole body. -/
theorem discardPreamble_starved {fuel : Nat} (hdone : f.read2boundary.done = false)
    (hnone : splitUntil f.read2boundary.pattern f.sock.inbox = none)
    (h : discardPreamble cut fuel f = some f') :
    f'.readLine = f.readLine ∧ f'.sock.inbox = [] := by
  induction fuel generalizing f with
  | zero => cases h
  | succ fuel ih =>
      have hstarved := starved cut f.size hdone hnone
      unfold discardPreamble callBoundary at h
      generalize f.read2boundary.call cut f.size f.sock = result at h hstarved
      cases hstarved with
      | failed =>
          obtain rfl := Option.some.inj h
          exact ⟨rfl, rfl⟩
      | piece bytes n hn hsize =>
          obtain ⟨hline, hinbox⟩ := ih
            (f := { f with sock.inbox := f.sock.inbox.drop n }) hdone (splitUntil_drop hnone n) h
          exact ⟨hline, hinbox⟩

theorem discardPreamble_isSome {fuel : Nat} (hf : f.Sane) (hfuel : f.ahead < fuel) :
    (discardPreamble cut fuel f).isSome := by
  induction fuel generalizing f with
  | zero => cases hfuel
  | succ fuel ih =>
      have hprogress := callProgress cut f.read2boundary hf.size f.sock
      unfold ahead at hfuel ih
      unfold discardPreamble callBoundary
      have hsane (r : Reader) (sock : Sock) :
          Sane { f with read2boundary := r, sock := sock } := ⟨hf.pattern, hf.size⟩
      generalize f.read2boundary.call cut f.size f.sock = result at hprogress
      cases hprogress with
      | seen bytes sock' hdone hinbox =>
          refine ih (hsane _ _) ?_
          rw [hdone, if_neg Bool.false_ne_true] at hfuel
          dsimp only
          rw [if_pos rfl]
          omega
      | piece bytes sock' hdone hinbox =>
          refine ih (hsane _ _) ?_
          dsimp only
          omega
      | finished hdone => rfl
      | failed err => rfl

theorem progress_readPreamble (hf : f.Sane) (hstate : f.state ≠ .eof)
    (h : f.readPreamble cut = some (t, f')) (ht : t.goesOn = true) :
    f'.Sane ∧ f'.left < f.left := by
  obtain ⟨f₁, hpreamble, hread⟩ := Option.map_eq_some_iff.mp h
  obtain ⟨hsane, hstate', hle⟩ := discardPreamble_spec cut hf hpreamble
  split at hread
  · obtain ⟨rfl, -⟩ := Prod.mk.inj hread
    cases ht
  · rename_i f₂ hline
    have hlineRead := lineRead_discardLine cut hsane hline
    have hsane₂ := hlineRead.sane hsane
    have hinbox := hlineRead.inbox
    have hsane₃ : Sane { f₂ with
        read2boundary := ⟨crlf ++ dashes ++ f₂.boundary, false⟩
        state := .readingHeader } := ⟨hsane₂.pattern, hsane₂.size⟩
    obtain ⟨hsane', hleft⟩ := progress_readHeader cut hsane₃ State.noConfusion hread ht
    refine ⟨hsane', hleft.trans_le ?_⟩
    unfold left ahead
    dsimp only
    rw [if_neg Bool.false_ne_true, if_neg (by decide), if_neg hstate]
    omega

/-- Each `read` that does not end the loop of `multipart` leaves less to do. -/
theorem progress_read (hf : f.Sane) (h : f.read cut = some (t, f')) (ht : t.goesOn = true) :
    f'.Sane ∧ f'.left < f.left := by
  unfold read at h
  split at h
  · rename_i hstate
    exact progress_readPreamble cut hf (by rw [hstate]; decide) h ht
  · rename_i hstate
    exact progress_readHeader cut hf (by rw [hstate]; decide) (Option.some.inj h) ht
  · rename_i hstate
    exact progress_readBodyPart cut hf (by rw [hstate]; decide) (Option.some.inj h) ht
  · obtain ⟨rfl, -⟩ := Prod.mk.inj (Option.some.inj h)
    cases ht

theorem read_isSome (hf : f.Sane) : (f.read cut).isSome := by
  unfold read
  split
  · unfold readPreamble
    rw [Option.isSome_map]
    exact discardPreamble_isSome cut hf (Nat.lt_succ_self _)
  · rfl
  · rfl
  · rfl

end Form

/-! ## Reading on -/

inductive Reads (cut : Cut) : Form → List Token → Form → Prop
  | refl (f : Form) : Reads cut f [] f
  /-- A `read` that begins in another function of the state and returns there. -/
  | congr {f f' f'' : Form} {tokens : List Token} (hread : f.read cut = f'.read cut)
      (h : Reads cut f' tokens f'') : Reads cut f tokens f''
  | step {f f' f'' : Form} {t : Token} {tokens : List Token} (hread : f.read cut = some (t, f'))
      (ht : t.goesOn = true) (h : Reads cut f' tokens f'') : Reads cut f (t :: tokens) f''

theorem Reads.trans {cut : Cut} {f f' f'' : Form} {tokens tokens' : List Token}
    (h : Reads cut f tokens f') (h' : Reads cut f' tokens' f'') :
    Reads cut f (tokens ++ tokens') f'' := by
  induction h with
  | refl f => exact h'
  | congr hread _ ih => exact .congr hread (ih h')
  | step hread ht _ ih => exact .step hread ht (ih h')

end CloudEdgePush.Server.RestyUpload
