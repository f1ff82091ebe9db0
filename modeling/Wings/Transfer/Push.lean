import Wings.Library.Transition

/-!
# Pushing an archive to another node

Four parties: the function, the writer of the request body, the copier of the archive and the
progress reporter, whose ticks are left out. A write to a pipe or an unbuffered channel and the read
that takes it are one step. A send on the error channel blocks forever, since its receiver waits for
the response.
-/

namespace Wings.Transfer

open Transition

abbrev Chunk := List UInt8

/-- The header of the form file, the archive, its checksum, and the closing boundaries. -/
inductive Part where
  | header
  | chunk (chunk : Chunk)
  | checksum (hashed : List Chunk)
  | boundary

/-- The function, by what it is doing. The flag tells success. -/
inductive Main where
  | preparing
  | requesting
  | doing
  | awaiting
  | reading
  | returning (ok : Bool)
  | returned (ok : Bool)
  deriving DecidableEq

/-- The goroutine that writes the request body: in a write of the archive, in a send on the error
channel, or in its deferred calls. -/
inductive Writer where
  | idle
  | createFormFile
  | stream
  | pipeWrite
  | awaitCopy
  | writeField
  | closeMultipart
  | sendError
  | unwindPipes
  | unwindMultipart
  | unwindWriter
  | unwindErrChan
  | done
  deriving DecidableEq

inductive Copier where
  | idle
  | reading
  | writing (chunk : Chunk)
  | sendError
  | done
  deriving DecidableEq

inductive Ticker where
  | idle
  | running
  | done
  deriving DecidableEq

/-- What the client returns when the request body has ended. -/
inductive Answer where
  | response (ok : Bool)
  | error
  deriving DecidableEq

/-- Reading the body, no longer reading it, failed before its end, or finished. -/
inductive Client where
  | idle
  | reading
  | stalled
  | failed
  | finished (answer : Answer)
  deriving DecidableEq

def Client.isOver : Client → Bool
  | .failed => true
  | .finished _ => true
  | _ => false

/-- The parties, the chunks left and hashed, and what the client has read. -/
structure State where
  main : Main
  writer : Writer
  copier : Copier
  ticker : Ticker
  client : Client
  /-- The context of the progress reporter is cancelled. -/
  cancelled : Bool
  archive : List Chunk
  remaining : List Chunk
  hashed : List Chunk
  body : List Part

namespace State

section

variable (state : State)

def writerClosed : Bool := state.writer = .unwindErrChan || state.writer = .done ||
    state.main = .returned true || state.main = .returned false

def readerClosed : Bool := state.client.isOver || state.main = .returned true ||
    state.main = .returned false

def pwClosed : Bool :=
  match state.writer with
  | .awaitCopy | .writeField | .closeMultipart | .unwindMultipart
  | .unwindWriter | .unwindErrChan | .done => true
  | _ => false

def srcClosed : Bool :=
  match state.writer with
  | .unwindMultipart | .unwindWriter | .unwindErrChan | .done => true
  | _ => false

/-- The context of the function is cancelled, which happens when it returns. -/
def ctxDone : Bool := state.main = .returned true || state.main = .returned false

/-- A write to the request body can return, with success or an error. -/
def canWrite (ok : Bool) : Bool :=
  if ok then
    state.client = .reading && !state.readerClosed && !state.writerClosed
  else state.readerClosed || state.writerClosed

def extend (ok : Bool) (part : Part) : List Part := if ok then state.body ++ [part] else state.body

end

end State

/-- A step of a party. A flag tells whether its call succeeds. -/
inductive Label where
  | prepare (ok : Bool)
  | request (ok : Bool)
  | clientReturned
  | receiveError
  | receiveClosed
  | readResponse (ok : Bool)
  | unwindMain (ok : Bool)
  | createFormFile (ok : Bool)
  | walk
  | archiveFails
  | streamCancelled
  | handOver
  | streamed
  | copyFinished
  | copyFailed
  | writeField (ok : Bool)
  | closeMultipart (ok : Bool)
  | unwindPipes
  | unwindMultipart (ok : Bool)
  | unwindWriter
  | unwindErrChan
  | copy (ok : Bool)
  | copierEnds
  | copierBroken
  | tickerStops
  | clientStalls
  | clientFails
  | clientEnds (answer : Answer)

/-- The steps that a party is bound to take when it can; failures are not among them. -/
def Prompt : Label → Prop
  | .archiveFails | .clientStalls | .clientFails => False
  | _ => True

namespace State

def mainStep (state : State) : Label → Option State
  | .prepare ok =>
    if state.main = .preparing then
      some (if ok then
        { state with main := .requesting, ticker := .running }
      else { state with main := .returned false, cancelled := true })
    else none
  | .request ok =>
    if state.main = .requesting then
      some (if ok then
        { state with
          main := .doing, writer := .createFormFile, client := .reading }
      else { state with main := .returned false, cancelled := true })
    else none
  | .clientReturned =>
    if state.main = .doing then
      match state.client with
      | .failed | .finished .error | .finished (.response false) =>
        some { state with main := .returning false }
      | .finished (.response true) => some { state with main := .awaiting }
      | _ => none
    else none
  | .receiveError =>
    if state.main = .awaiting ∧ state.writer = .sendError then
      some { state with main := .returning false, writer := .unwindPipes }
    else none
  | .receiveClosed =>
    if state.main = .awaiting ∧ state.writer = .done then
      some { state with main := .reading }
    else none
  | .readResponse ok =>
    if state.main = .reading then
      some { state with main := .returning ok }
    else none
  | .unwindMain ok =>
    match state.main with
    | .returning result =>
      if state.canWrite ok then
        some { state with
          main := .returned result
          cancelled := true
          body := state.extend ok .boundary }
      else none
    | _ => none
  | _ => none

def writerStep (state : State) : Label → Option State
  | .createFormFile ok =>
    if state.writer = .createFormFile ∧ state.canWrite ok then
      some (if ok then
        { state with
          writer := .stream, copier := .reading
          body := state.body ++ [.header] }
      else { state with writer := .sendError })
    else none
  | .walk =>
    if state.writer = .stream ∧ state.remaining ≠ [] then
      some { state with writer := .pipeWrite }
    else none
  | .archiveFails =>
    if state.writer = .stream then
      some { state with writer := .sendError }
    else none
  | .streamCancelled =>
    if state.writer = .stream ∧ state.ctxDone then
      some { state with writer := .sendError }
    else none
  | .handOver =>
    match state.remaining with
    | chunk :: rest =>
      if state.writer = .pipeWrite ∧ state.copier = .reading then
        some { state with
          writer := .stream
          copier := .writing chunk
          remaining := rest
          hashed := state.hashed ++ [chunk] }
      else none
    | [] => none
  | .streamed =>
    if state.writer = .stream ∧ state.remaining = [] then
      some { state with writer := .awaitCopy }
    else none
  | .copyFinished =>
    if state.writer = .awaitCopy ∧ state.copier = .done then
      some { state with writer := .writeField }
    else none
  | .copyFailed =>
    if state.writer = .awaitCopy ∧ state.copier = .sendError then
      some { state with writer := .sendError, copier := .done }
    else none
  | .writeField ok =>
    if state.writer = .writeField ∧ state.canWrite ok then
      some (if ok then
        { state with
          writer := .closeMultipart
          cancelled := true
          body := state.body ++ [.checksum state.hashed] }
      else { state with writer := .sendError })
    else none
  | .closeMultipart ok =>
    if state.writer = .closeMultipart ∧ state.canWrite ok then
      some { state with
        writer := .unwindPipes, body := state.extend ok .boundary }
    else none
  | .unwindPipes =>
    if state.writer = .unwindPipes then
      some { state with writer := .unwindMultipart }
    else none
  | .unwindMultipart ok =>
    if state.writer = .unwindMultipart ∧ state.canWrite ok then
      some { state with
        writer := .unwindWriter, body := state.extend ok .boundary }
    else none
  | .unwindWriter =>
    if state.writer = .unwindWriter then
      some { state with writer := .unwindErrChan }
    else none
  | .unwindErrChan =>
    if state.writer = .unwindErrChan then
      some { state with writer := .done }
    else none
  | _ => none

def otherStep (state : State) : Label → Option State
  | .copy ok =>
    match state.copier with
    | .writing chunk =>
      if state.canWrite ok then
        some (if ok then
          { state with
            copier := .reading, body := state.body ++ [.chunk chunk] }
        else { state with copier := .sendError })
      else none
    | _ => none
  | .copierEnds =>
    if state.copier = .reading ∧ state.pwClosed then
      some { state with copier := .done }
    else none
  | .copierBroken =>
    if state.copier = .reading ∧ state.srcClosed then
      some { state with copier := .sendError }
    else none
  | .tickerStops =>
    if state.ticker = .running ∧ state.cancelled then
      some { state with ticker := .done }
    else none
  | .clientStalls =>
    if state.client = .reading then
      some { state with client := .stalled }
    else none
  | .clientFails =>
    if state.client = .reading ∨ state.client = .stalled then
      some { state with client := .failed }
    else none
  | .clientEnds answer =>
    if state.client = .reading ∧ state.writerClosed then
      some { state with client := .finished answer }
    else none
  | _ => none

def step (state : State) (label : Label) : Option State := (state.mainStep label).or
    ((state.writerStep label).or (state.otherStep label))

def Steps (state : State) (label : Label) (after : State) : Prop := state.step label = some after

def start (archive : List Chunk) : State :=
  ⟨.preparing, .idle, .idle, .idle, .idle, false, archive, archive, [], []⟩

/-- The function has returned, and every goroutine that was started has
ended. -/
def Finished (state : State) : Prop := (∃ ok, state.main = .returned ok) ∧
    (state.writer = .idle ∨ state.writer = .done) ∧ (state.copier = .idle ∨ state.copier = .done) ∧
        (state.ticker = .idle ∨ state.ticker = .done)

def Complete (state : State) : Prop := ∃ rest, state.body = .header :: state.archive.map .chunk ++
    .checksum state.archive :: rest

end State

/-- No failure of the archive, the destination, or the request before the checksum field. -/
def Unharmed (state : State) : Label → Prop
  | .archiveFails | .clientStalls => False
  | .clientFails => ∃ hashed, .checksum hashed ∈ state.body
  | _ => True

open State (Steps Finished)

def Main.rank : Main → Nat
  | .preparing => 40
  | .requesting => 30
  | .doing => 5
  | .awaiting => 4
  | .reading => 3
  | .returning _ => 2
  | .returned _ => 1

def Writer.rank : Writer → Nat
  | .idle => 15
  | .createFormFile => 15
  | .stream => 11
  | .pipeWrite => 10
  | .awaitCopy => 9
  | .writeField => 8
  | .closeMultipart => 7
  | .sendError => 6
  | .unwindPipes => 5
  | .unwindMultipart => 4
  | .unwindWriter => 3
  | .unwindErrChan => 2
  | .done => 1

def Copier.rank : Copier → Nat
  | .idle => 4
  | .writing _ => 3
  | .reading => 2
  | .sendError => 1
  | .done => 0

def Ticker.rank : Ticker → Nat
  | .idle => 2
  | .running => 1
  | .done => 0

def Client.rank : Client → Nat
  | .idle => 3
  | .reading => 2
  | .stalled => 1
  | .failed => 0
  | .finished _ => 0

namespace State

def measure (state : State) : Nat := state.main.rank + state.writer.rank + state.copier.rank +
    state.ticker.rank + state.client.rank + 5 * state.remaining.length

variable {state after : State}

theorem step_cases (taken : state.Steps label after) : state.mainStep label = some after ∨
    state.writerStep label = some after ∨ state.otherStep label = some after := by
  simp only [Steps, step, Option.or_eq_some_iff] at taken
  rcases taken with main | ⟨-, writer | ⟨-, other⟩⟩
  · exact .inl main
  · exact .inr (.inl writer)
  · exact .inr (.inr other)

theorem measure_mainStep (taken : state.mainStep label = some after) :
    after.measure < state.measure := by
  cases label <;> simp only [mainStep, reduceCtorEq] at taken
  case clientReturned =>
    split_ifs at taken with doing
    split at taken <;> simp only [reduceCtorEq, Option.some.injEq] at taken <;>
      subst taken <;> simp only [measure, doing, Main.rank] <;> omega
  case unwindMain ok =>
    split at taken
    · rename_i result returning
      split_ifs at taken
      cases taken
      simp only [measure, returning, Main.rank]
      omega
    · cases taken
  all_goals
    split_ifs at taken with ready <;> obtain rfl := Option.some.inj taken <;>
      simp [measure, ready, Main.rank, Writer.rank, Ticker.rank, Client.rank]
  all_goals omega

theorem measure_writerStep (taken : state.writerStep label = some after) :
    after.measure < state.measure := by
  cases label <;> simp only [writerStep, reduceCtorEq] at taken
  case handOver =>
    split at taken
    · rename_i chunk rest isRemaining
      split_ifs at taken with ready
      cases taken
      simp only [measure, ready.1, ready.2, isRemaining, Writer.rank, Copier.rank, List.length_cons]
      omega
    · simp at taken
  all_goals
    split_ifs at taken with ready <;> obtain rfl := Option.some.inj taken <;>
      simp [measure, ready, Writer.rank, Copier.rank]
  all_goals omega

theorem measure_otherStep (taken : state.otherStep label = some after) :
    after.measure < state.measure := by
  cases label <;> simp only [otherStep, reduceCtorEq] at taken
  case copy ok =>
    split at taken
    · rename_i chunk writing
      split_ifs at taken <;> obtain rfl := Option.some.inj taken <;>
        simp [measure, writing, Copier.rank]
    · simp at taken
  case clientFails =>
    split_ifs at taken with ready
    cases taken
    rcases ready with ready | ready <;> simp [measure, ready, Client.rank]
  all_goals
    split_ifs at taken with ready
    cases taken
    simp [measure, ready, Copier.rank, Ticker.rank, Client.rank]

theorem measure_lt (taken : state.Steps label after) : after.measure < state.measure := by
  rcases step_cases taken with main | writer | other
  · exact measure_mainStep main
  · exact measure_writerStep writer
  · exact measure_otherStep other

end State

def Copier.inFlight : Copier → List Chunk
  | .writing chunk => [chunk]
  | _ => []

def Copier.Active (copier : Copier) : Prop := copier = .reading ∨ ∃ chunk, copier = .writing chunk

namespace State

structure Fresh (state : State) : Prop where
  copier : state.copier = .idle
  body : state.body = []
  hashed : state.hashed = []
  remaining : state.remaining = state.archive

structure Connected (state : State) : Prop where
  main : state.main = .doing
  client : state.client = .reading

def Copied (state : State) : Prop := ∃ delivered : List Chunk,
    state.body = .header :: delivered.map .chunk ∧
      state.hashed = delivered ++ state.copier.inFlight ∧
        state.hashed ++ state.remaining = state.archive

/-- The checksum field has been written, and the client reads on. -/
structure Late (state : State) : Prop where
  copier : state.copier = .done
  cancelled : state.cancelled = true
  complete : state.Complete
  begun : state.main ≠ .preparing ∧ state.main ≠ .requesting
  answered : state.Connected ∨ state.readerClosed = true

def Staged (state : State) : Prop :=
  match state.writer with
  | .idle =>
    state.Fresh ∧ state.client = .idle ∧ (state.main = .preparing ∨ state.main = .requesting ∨
        state.main = .returned false ∧ state.cancelled = true)
  | .createFormFile => state.Connected ∧ state.Fresh
  | .stream => state.Connected ∧ state.Copied ∧ state.copier.Active
  | .pipeWrite =>
    state.Connected ∧ state.Copied ∧ state.copier.Active ∧ state.remaining ≠ []
  | .awaitCopy =>
    state.Connected ∧ state.Copied ∧ state.remaining = [] ∧
      (state.copier.Active ∨ state.copier = .done)
  | .writeField =>
    state.Connected ∧ state.Copied ∧ state.remaining = [] ∧ state.copier = .done
  | .sendError => False
  | .closeMultipart | .unwindPipes | .unwindMultipart | .unwindWriter
  | .unwindErrChan | .done => state.Late

def wroteField (state : State) : Bool :=
  match state.writer with
  | .closeMultipart | .unwindPipes | .unwindMultipart | .unwindWriter
  | .unwindErrChan | .done => true
  | _ => false

theorem staged_start (archive : List Chunk) : (start archive).Staged :=
  ⟨⟨rfl, rfl, rfl, rfl⟩, rfl, .inl rfl⟩

variable {state after : State}

theorem Connected.isOpen (connected : state.Connected)
    (writing : state.writer ≠ .unwindErrChan ∧ state.writer ≠ .done) :
    state.readerClosed = false ∧ state.writerClosed = false := by
  simp [readerClosed, writerClosed, connected.main, connected.client, writing, Client.isOver]

theorem Late.staged (late : state.Late) (wrote : state.wroteField = true) : state.Staged := by
  unfold wroteField at wrote
  unfold Staged
  split at wrote <;> rename_i isWriter
  all_goals first
    | rw [isWriter]; exact late
    | simp at wrote

theorem Staged.cases (staged : state.Staged) : state.writer = .idle ∨
    state.Connected ∧ (∀ hashed, .checksum hashed ∉ state.body) ∧
    state.readerClosed = false ∧ state.writerClosed = false ∧ state.srcClosed = false ∨
    state.Late ∧ state.wroteField = true := by
  have copied : state.Copied → ∀ hashed, .checksum hashed ∉ state.body := by
    rintro ⟨delivered, isBody, -⟩ hashed
    simp [isBody]
  have fresh : state.Fresh → ∀ hashed, .checksum hashed ∉ state.body := by
    intro isFresh hashed
    simp [isFresh.body]
  unfold Staged at staged
  cases isWriter : state.writer with
  | idle => exact .inl rfl
  | sendError => simp [isWriter] at staged
  | createFormFile =>
    simp only [isWriter] at staged
    obtain ⟨connected, isFresh⟩ := staged
    refine .inr (.inl ⟨connected, fresh isFresh, ?_⟩)
    simp [srcClosed, isWriter, connected.isOpen (by simp [isWriter])]
  | stream | pipeWrite | awaitCopy | writeField =>
    simp only [isWriter] at staged
    obtain ⟨connected, isCopied, -⟩ := staged
    refine .inr (.inl ⟨connected, copied isCopied, ?_⟩)
    simp [srcClosed, isWriter, connected.isOpen (by simp [isWriter])]
  | _ =>
    simp only [isWriter] at staged
    exact .inr (.inr ⟨staged, by simp [wroteField, isWriter]⟩)

theorem Complete.extend (complete : state.Complete) (ok : Bool) (part : Part) :
    ∃ rest, state.extend ok part = .header :: state.archive.map .chunk ++
    .checksum state.archive :: rest := by
  obtain ⟨rest, isBody⟩ := complete
  cases ok with
  | true => exact ⟨rest ++ [part], by simp [State.extend, isBody]⟩
  | false => exact ⟨rest, isBody⟩

theorem Late.isOver (late : state.Late) (notDoing : state.main ≠ .doing)
    (notReturned : ∀ ok, state.main ≠ .returned ok) : state.client.isOver = true := by
  rcases late.answered with connected | closed
  · exact absurd connected.main notDoing
  · simpa [readerClosed, notReturned] using closed

theorem Late.moved (late : state.Late) (wrote : state.wroteField = true)
    {main : Main} {ticker : Ticker} {client : Client} {cancelled : Bool}
    {body : List Part} (isCancelled : cancelled = true)
    (begun : main ≠ .preparing ∧ main ≠ .requesting)
    (complete : ∃ rest, body = .header :: state.archive.map .chunk ++
    .checksum state.archive :: rest)
    (answered : main = .doing ∧ client = .reading ∨ client.isOver = true ∨
    ∃ ok, main = .returned ok) :
    State.Staged ⟨main, state.writer, state.copier, ticker, client, cancelled,
    state.archive, state.remaining, state.hashed, body⟩ := by
  refine Late.staged ⟨late.copier, isCancelled, complete, begun, ?_⟩ wrote
  rcases answered with ⟨doing, reading⟩ | ended | ⟨ok, rfl⟩
  · exact .inl ⟨doing, reading⟩
  · exact .inr (by simp [readerClosed, ended])
  · exact .inr (by cases ok <;> simp [readerClosed])

theorem Staged.mainStep (staged : state.Staged)
    (taken : state.mainStep label = some after) : after.Staged := by
  rcases staged.cases with idle | ⟨connected, -⟩ | ⟨late, wrote⟩
  · unfold Staged at staged
    rw [idle] at staged
    obtain ⟨fresh, client, main | main | ⟨main, -⟩⟩ := staged
    · cases label <;> simp [State.mainStep, main] at taken
      split_ifs at taken <;> subst taken <;> unfold Staged <;> rw [idle]
      · exact ⟨{ fresh with }, client, .inr (.inl rfl)⟩
      · exact ⟨{ fresh with }, client, .inr (.inr ⟨rfl, rfl⟩)⟩
    · cases label <;> simp [State.mainStep, main] at taken
      split_ifs at taken <;> subst taken
      · exact ⟨⟨rfl, rfl⟩, { fresh with }⟩
      · unfold Staged
        rw [idle]
        exact ⟨{ fresh with }, client, .inr (.inr ⟨rfl, rfl⟩)⟩
    · cases label <;> simp [State.mainStep, main] at taken
  · have main := connected.main
    have client := connected.client
    cases label <;> simp [State.mainStep, main, client] at taken
  · cases label with
    | clientReturned =>
      simp only [State.mainStep] at taken
      split_ifs at taken with doing
      split at taken <;> rename_i client <;>
        simp only [reduceCtorEq, Option.some.injEq] at taken <;>
          subst taken <;>
            exact late.moved wrote late.cancelled (by simp) late.complete
              (.inr (.inl (by rw [client]; rfl)))
    | receiveError =>
      simp only [State.mainStep] at taken
      split_ifs at taken with ready
      simp [wroteField, ready.2] at wrote
    | receiveClosed =>
      simp only [State.mainStep] at taken
      split_ifs at taken with ready
      cases taken
      exact late.moved wrote late.cancelled (by simp) late.complete
        (.inr (.inl (late.isOver (by simp [ready.1]) (by simp [ready.1]))))
    | readResponse ok =>
      simp only [State.mainStep] at taken
      split_ifs at taken with reading
      cases taken
      exact late.moved wrote late.cancelled (by simp) late.complete
        (.inr (.inl (late.isOver (by simp [reading]) (by simp [reading]))))
    | unwindMain ok =>
      simp only [State.mainStep] at taken
      split at taken
      · split_ifs at taken
        cases taken
        exact late.moved wrote rfl (by simp) (late.complete.extend _ _) (.inr (.inr ⟨_, rfl⟩))
      · simp at taken
    | prepare ok => simp [State.mainStep, late.begun.1] at taken
    | request ok => simp [State.mainStep, late.begun.2] at taken
    | _ => simp [State.mainStep] at taken

theorem Staged.ticker (staged : state.Staged) (ticker : Ticker) :
    State.Staged { state with ticker := ticker } := by
  have fresh : state.Fresh → ∀ writer,
      State.Fresh { state with writer := writer, ticker := ticker } :=
    fun fresh _ => { fresh with }
  have connected : state.Connected → ∀ writer,
      State.Connected { state with writer := writer, ticker := ticker } :=
    fun connected _ => { connected with }
  unfold Staged at staged ⊢
  cases isWriter : state.writer <;> simp only [isWriter] at staged ⊢
  case idle => exact ⟨fresh staged.1 _, staged.2⟩
  case createFormFile => exact ⟨connected staged.1 _, fresh staged.2 _⟩
  case stream => exact ⟨connected staged.1 _, staged.2⟩
  case pipeWrite => exact ⟨connected staged.1 _, staged.2⟩
  case awaitCopy => exact ⟨connected staged.1 _, staged.2⟩
  case writeField => exact ⟨connected staged.1 _, staged.2⟩
  all_goals
    exact { staged with answered := staged.answered.imp (fun here => connected here _) id }

theorem Copied.deliver (copied : state.Copied) (writing : state.copier = .writing chunk) :
    State.Copied { state with
      copier := .reading, body := state.body ++ [.chunk chunk] } := by
  obtain ⟨delivered, isBody, isHashed, isArchive⟩ := copied
  refine ⟨delivered ++ [chunk], ?_, ?_, isArchive⟩
  · simp [isBody]
  · simpa [writing, Copier.inFlight] using isHashed

theorem Staged.connectedStep (staged : state.Staged) (connected : state.Connected)
    (noChecksum : ∀ hashed, .checksum hashed ∉ state.body) (readerOpen : state.readerClosed = false)
    (writerOpen : state.writerClosed = false)
    (srcOpen : state.srcClosed = false) (unharmed : Unharmed state label)
    (taken : state.otherStep label = some after) : after.Staged := by
  cases label with
  | copy ok =>
    simp only [State.otherStep] at taken
    split at taken
    · rename_i chunk writing
      cases ok with
      | false => simp [canWrite, readerOpen, writerOpen] at taken
      | true =>
        simp only [if_true, Option.ite_none_right_eq_some] at taken
        obtain ⟨-, taken⟩ := taken
        cases taken
        unfold Staged at staged ⊢
        cases isWriter : state.writer <;>
          simp only [isWriter] at staged ⊢
        case stream =>
          exact ⟨{ connected with }, staged.2.1.deliver writing, .inl rfl⟩
        case pipeWrite =>
          exact ⟨{ connected with }, staged.2.1.deliver writing, .inl rfl, staged.2.2.2⟩
        case awaitCopy =>
          exact ⟨{ connected with }, staged.2.1.deliver writing, staged.2.2.1, .inl (.inl rfl)⟩
        case idle => exact absurd staged.1.copier (by simp [writing])
        case createFormFile =>
          exact absurd staged.2.copier (by simp [writing])
        case writeField => exact absurd staged.2.2.2 (by simp [writing])
        all_goals exact absurd staged.copier (by simp [writing])
    · simp at taken
  | copierEnds =>
    simp only [State.otherStep, Option.ite_none_right_eq_some] at taken
    obtain ⟨⟨reading, ended⟩, taken⟩ := taken
    cases taken
    unfold pwClosed at ended
    unfold Staged at staged ⊢
    cases isWriter : state.writer <;>
      simp only [isWriter, Bool.false_eq_true] at staged ended ⊢
    case awaitCopy =>
      obtain ⟨-, ⟨delivered, isBody, isHashed, isArchive⟩, isEmpty, -⟩ := staged
      refine ⟨{ connected with }, ⟨delivered, isBody, ?_, isArchive⟩, isEmpty, .inr trivial⟩
      simpa [reading, Copier.inFlight] using isHashed
    case writeField => exact absurd staged.2.2.2 (by simp [reading])
    all_goals exact absurd staged.copier (by simp [reading])
  | copierBroken => simp [State.otherStep, srcOpen] at taken
  | tickerStops =>
    simp only [State.otherStep, Option.ite_none_right_eq_some] at taken
    obtain ⟨-, taken⟩ := taken
    cases taken
    exact staged.ticker .done
  | clientStalls => exact unharmed.elim
  | clientFails =>
    obtain ⟨hashed, member⟩ := unharmed
    exact absurd member (noChecksum hashed)
  | clientEnds answer => simp [State.otherStep, writerOpen] at taken
  | _ => simp [State.otherStep] at taken

theorem Staged.otherStep (staged : state.Staged) (unharmed : Unharmed state label)
    (taken : state.otherStep label = some after) : after.Staged := by
  rcases staged.cases with idle |
    ⟨connected, noChecksum, readerOpen, writerOpen, srcOpen⟩ | ⟨late, wrote⟩
  · unfold Staged at staged
    rw [idle] at staged
    obtain ⟨fresh, client, main⟩ := staged
    cases label <;>
      simp [State.otherStep, fresh.copier, client] at taken
    obtain ⟨-, rfl⟩ := taken
    rw [idle]
    exact ⟨{ fresh with copier := rfl }, rfl, main⟩
  · exact staged.connectedStep connected noChecksum readerOpen writerOpen srcOpen unharmed taken
  · have answered : state.main = .doing ∧ state.client = .reading ∨
        state.client.isOver = true ∨ ∃ ok, state.main = .returned ok := by
      rcases late.answered with connected | closed
      · exact .inl ⟨connected.main, connected.client⟩
      · simp only [readerClosed, Bool.or_eq_true, decide_eq_true_iff, or_assoc] at closed
        rcases closed with ended | returned | returned
        · exact .inr (.inl ended)
        · exact .inr (.inr ⟨_, returned⟩)
        · exact .inr (.inr ⟨_, returned⟩)
    cases label with
    | tickerStops =>
      simp only [State.otherStep] at taken
      split_ifs at taken
      cases taken
      exact late.moved wrote late.cancelled late.begun late.complete answered
    | clientStalls => exact unharmed.elim
    | clientFails | clientEnds answer =>
      simp only [State.otherStep] at taken
      split_ifs at taken
      cases taken
      exact late.moved wrote late.cancelled late.begun late.complete (.inr (.inl rfl))
    | _ => simp [State.otherStep, late.copier] at taken

theorem Late.advance (late : state.Late) {writer : Writer} {body : List Part}
    (complete : ∃ rest, body = .header :: state.archive.map .chunk ++
      .checksum state.archive :: rest) : State.Late { state with writer := writer, body := body } :=
  { late with
    complete := complete
    answered := late.answered.imp (fun connected => { connected with }) id }

theorem Staged.writerStep (staged : state.Staged) (unharmed : Unharmed state label)
    (taken : state.writerStep label = some after) : after.Staged := by
  unfold Staged at staged
  cases label <;> simp only [State.writerStep, reduceCtorEq,
    Option.ite_none_right_eq_some, Option.some.injEq] at taken
  case archiveFails => exact unharmed.elim
  case createFormFile ok =>
    obtain ⟨⟨isWriter, can⟩, rfl⟩ := taken
    simp only [isWriter] at staged
    obtain ⟨connected, fresh⟩ := staged
    obtain ⟨readerOpen, writerOpen⟩ := connected.isOpen (by simp [isWriter])
    cases ok with
    | false => simp [canWrite, readerOpen, writerOpen] at can
    | true =>
      refine ⟨{ connected with }, ⟨[], ?_, ?_, ?_⟩, .inl rfl⟩
      · simp [fresh.body]
      · simp [fresh.hashed, Copier.inFlight]
      · simp [fresh.hashed, fresh.remaining]
  case walk =>
    obtain ⟨⟨isWriter, remains⟩, rfl⟩ := taken
    simp only [isWriter] at staged
    obtain ⟨connected, copied, active⟩ := staged
    exact ⟨{ connected with }, copied, active, remains⟩
  case streamCancelled =>
    obtain ⟨⟨isWriter, cancelled⟩, -⟩ := taken
    simp only [isWriter] at staged
    simp [ctxDone, staged.1.main] at cancelled
  case handOver =>
    split at taken
    · rename_i chunk rest isRemaining
      simp only [Option.ite_none_right_eq_some, Option.some.injEq] at taken
      obtain ⟨⟨isWriter, reading⟩, rfl⟩ := taken
      simp only [isWriter] at staged
      obtain ⟨connected, ⟨delivered, isBody, isHashed, isArchive⟩, -⟩ := staged
      refine ⟨{ connected with }, ⟨delivered, isBody, ?_, ?_⟩, .inr ⟨chunk, rfl⟩⟩
      · simp [isHashed, reading, Copier.inFlight]
      · simpa [isRemaining] using isArchive
    · simp at taken
  case streamed =>
    obtain ⟨⟨isWriter, isEmpty⟩, rfl⟩ := taken
    simp only [isWriter] at staged
    obtain ⟨connected, copied, active⟩ := staged
    exact ⟨{ connected with }, copied, isEmpty, .inl active⟩
  case copyFinished =>
    obtain ⟨⟨isWriter, copier⟩, rfl⟩ := taken
    simp only [isWriter] at staged
    obtain ⟨connected, copied, isEmpty, -⟩ := staged
    exact ⟨{ connected with }, copied, isEmpty, copier⟩
  case copyFailed =>
    obtain ⟨⟨isWriter, failed⟩, -⟩ := taken
    simp [isWriter, Copier.Active, failed] at staged
  case writeField ok =>
    obtain ⟨⟨isWriter, can⟩, rfl⟩ := taken
    simp only [isWriter] at staged
    obtain ⟨connected, ⟨delivered, isBody, isHashed, isArchive⟩, isEmpty, copier⟩ := staged
    obtain ⟨readerOpen, writerOpen⟩ := connected.isOpen (by simp [isWriter])
    cases ok with
    | false => simp [canWrite, readerOpen, writerOpen] at can
    | true =>
      have whole : delivered = state.archive := by
        simpa [isEmpty, isHashed, copier, Copier.inFlight] using isArchive
      refine ⟨copier, rfl, ⟨[], ?_⟩, by simp [connected.main], .inl { connected with }⟩
      simp [isBody, isHashed, whole, copier, Copier.inFlight]
  case closeMultipart ok =>
    obtain ⟨⟨isWriter, -⟩, rfl⟩ := taken
    simp only [isWriter] at staged
    exact staged.advance (staged.complete.extend _ _)
  case unwindMultipart ok =>
    obtain ⟨⟨isWriter, -⟩, rfl⟩ := taken
    simp only [isWriter] at staged
    exact staged.advance (staged.complete.extend _ _)
  all_goals
    obtain ⟨isWriter, rfl⟩ := taken
    simp only [isWriter] at staged
    exact staged.advance staged.complete

theorem Staged.step (staged : state.Staged) (unharmed : Unharmed state label)
    (taken : state.Steps label after) : after.Staged := by
  rcases step_cases taken with main | writer | other
  · exact staged.mainStep main
  · exact staged.writerStep unharmed writer
  · exact staged.otherStep unharmed other

def CanGoOn (state : State) : Prop :=
  ∃ label after, Prompt label ∧ Guarded Unharmed Steps state label after

theorem progress_of_isSome (label : Label) (prompt : Prompt label) (unharmed : Unharmed state label)
    (able : (state.mainStep label).isSome ∨ (state.writerStep label).isSome ∨
    (state.otherStep label).isSome) : state.Finished ∨ state.CanGoOn := by
  have isSome : (state.step label).isSome = true := by
    simpa [State.step] using able
  obtain ⟨after, taken⟩ := Option.isSome_iff_exists.1 isSome
  exact .inr ⟨label, after, prompt, unharmed, taken⟩

theorem progress_of_active (connected : state.Connected) (readerOpen : state.readerClosed = false)
    (writerOpen : state.writerClosed = false) (active : state.copier.Active)
    (reading : state.copier = .reading → state.Finished ∨ state.CanGoOn) :
    state.Finished ∨ state.CanGoOn := by
  rcases active with isReading | ⟨chunk, writing⟩
  · exact reading isReading
  · refine progress_of_isSome (.copy true) trivial trivial ?_
    simp [State.otherStep, writing, canWrite, connected.client, readerOpen, writerOpen]

theorem exists_canWrite (late : state.Late) : ∃ ok, state.canWrite ok = true := by
  by_cases closed : state.readerClosed = true ∨ state.writerClosed = true
  · exact ⟨false, by simpa [canWrite] using closed⟩
  · simp only [not_or, Bool.not_eq_true] at closed
    rcases late.answered with connected | readerClosed
    · exact ⟨true, by simp [canWrite, connected.client, closed]⟩
    · exact absurd readerClosed (by simp [closed])

theorem Late.progress (late : state.Late) (done : state.writer = .done) :
    state.Finished ∨ state.CanGoOn := by
  cases main : state.main with
  | preparing => exact absurd main late.begun.1
  | requesting => exact absurd main late.begun.2
  | doing =>
    rcases late.answered with connected | closed
    · refine progress_of_isSome (.clientEnds .error) trivial trivial ?_
      simp [State.otherStep, connected.client, writerClosed, done]
    · have ended : state.client.isOver = true := by
        simpa [readerClosed, main] using closed
      refine progress_of_isSome .clientReturned trivial trivial ?_
      cases client : state.client with
      | finished answer =>
        rcases answer with (_ | _) | _ <;>
          simp [State.mainStep, main, client]
      | failed => simp [State.mainStep, main, client]
      | _ => simp [client, Client.isOver] at ended
  | awaiting =>
    refine progress_of_isSome .receiveClosed trivial trivial ?_
    simp [State.mainStep, main, done]
  | reading =>
    refine progress_of_isSome (.readResponse true) trivial trivial ?_
    simp [State.mainStep, main]
  | returning ok =>
    obtain ⟨written, can⟩ := exists_canWrite late
    refine progress_of_isSome (.unwindMain written) trivial trivial ?_
    simp [State.mainStep, main, can]
  | returned ok =>
    cases ticker : state.ticker with
    | running =>
      refine progress_of_isSome .tickerStops trivial trivial ?_
      simp [State.otherStep, ticker, late.cancelled]
    | _ =>
      left
      exact ⟨⟨ok, main⟩, .inr done, .inr late.copier, by simp [ticker]⟩

theorem Staged.progress (staged : state.Staged) : state.Finished ∨ state.CanGoOn := by
  unfold Staged at staged
  cases isWriter : state.writer <;> simp only [isWriter] at staged
  case idle =>
    obtain ⟨fresh, -, main | main | ⟨main, cancelled⟩⟩ := staged
    · refine progress_of_isSome (.prepare true) trivial trivial ?_
      simp [State.mainStep, main]
    · refine progress_of_isSome (.request true) trivial trivial ?_
      simp [State.mainStep, main]
    · cases ticker : state.ticker with
      | running =>
        refine progress_of_isSome .tickerStops trivial trivial ?_
        simp [State.otherStep, ticker, cancelled]
      | _ =>
        left
        exact ⟨⟨false, main⟩, .inl isWriter, .inl fresh.copier, by simp [ticker]⟩
  case createFormFile =>
    obtain ⟨readerOpen, writerOpen⟩ := staged.1.isOpen (by simp [isWriter])
    refine progress_of_isSome (.createFormFile true) trivial trivial ?_
    simp [State.writerStep, isWriter, canWrite, staged.1.client, readerOpen, writerOpen]
  case stream =>
    by_cases isEmpty : state.remaining = []
    · refine progress_of_isSome .streamed trivial trivial ?_
      simp [State.writerStep, isWriter, isEmpty]
    · refine progress_of_isSome .walk trivial trivial ?_
      simp [State.writerStep, isWriter, isEmpty]
  case pipeWrite =>
    obtain ⟨connected, -, active, remains⟩ := staged
    obtain ⟨readerOpen, writerOpen⟩ := connected.isOpen (by simp [isWriter])
    refine progress_of_active connected readerOpen writerOpen active ?_
    intro reading
    refine progress_of_isSome .handOver trivial trivial ?_
    obtain ⟨chunk, rest, isRemaining⟩ := List.exists_cons_of_ne_nil remains
    simp [State.writerStep, isWriter, isRemaining, reading]
  case awaitCopy =>
    obtain ⟨connected, -, -, active | ended⟩ := staged
    · obtain ⟨readerOpen, writerOpen⟩ := connected.isOpen (by simp [isWriter])
      refine progress_of_active connected readerOpen writerOpen active ?_
      intro reading
      refine progress_of_isSome .copierEnds trivial trivial ?_
      simp [State.otherStep, reading, pwClosed, isWriter]
    · refine progress_of_isSome .copyFinished trivial trivial ?_
      simp [State.writerStep, isWriter, ended]
  case writeField =>
    obtain ⟨readerOpen, writerOpen⟩ := staged.1.isOpen (by simp [isWriter])
    refine progress_of_isSome (.writeField true) trivial trivial ?_
    simp [State.writerStep, isWriter, canWrite, staged.1.client, readerOpen, writerOpen]
  case closeMultipart =>
    obtain ⟨ok, can⟩ := exists_canWrite staged
    refine progress_of_isSome (.closeMultipart ok) trivial trivial ?_
    simp [State.writerStep, isWriter, can]
  case unwindPipes =>
    refine progress_of_isSome .unwindPipes trivial trivial ?_
    simp [State.writerStep, isWriter]
  case unwindMultipart =>
    obtain ⟨ok, can⟩ := exists_canWrite staged
    refine progress_of_isSome (.unwindMultipart ok) trivial trivial ?_
    simp [State.writerStep, isWriter, can]
  case unwindWriter =>
    refine progress_of_isSome .unwindWriter trivial trivial ?_
    simp [State.writerStep, isWriter]
  case unwindErrChan =>
    refine progress_of_isSome .unwindErrChan trivial trivial ?_
    simp [State.writerStep, isWriter]
  case done => exact staged.progress isWriter

theorem Staged.complete (staged : state.Staged)
    (success : state.main = .returned true) : state.Complete := by
  rcases staged.cases with idle | ⟨connected, -⟩ | ⟨late, -⟩
  · unfold Staged at staged
    simp [idle, success] at staged
  · exact absurd (connected.main.symm.trans success) (by simp)
  · exact late.complete

end State

/-- An unharmed push comes to an end with every goroutine, and it reports success only for a
complete body. -/
theorem push_ends_of_unharmed (archive : List Chunk) :
    Inevitable (Guarded Unharmed Steps) Prompt Finished (State.start archive) ∧
      ∀ state, Reachable (fun initial => initial = State.start archive)
        (Guarded Unharmed Steps) state → state.main = .returned true → state.Complete := by
  have preserved : ∀ state label after, state.Staged →
      Guarded Unharmed Steps state label after → after.Staged :=
    fun _ _ _ staged taken => staged.step taken.1 taken.2
  refine ⟨?_, ?_⟩
  · refine Inevitable.of_measure State.measure preserved ?_ ?_ (State.staged_start archive)
    · exact fun _ _ _ taken => State.measure_lt taken.2
    · exact fun _ staged => staged.progress
  · intro state reached success
    have staged : state.Staged := by
      refine reached.invariant ?_ preserved
      rintro initial rfl
      exact State.staged_start archive
    exact staged.complete success

theorem push_of_one_chunk_succeeds : ∃ state, Reachable (fun initial => initial = State.start [[0]])
        (Guarded Unharmed Steps) state ∧
      state.main = .returned true ∧ state.Finished ∧ state.Complete := by
  have start : Reachable (fun initial => initial = State.start [[0]])
      (Guarded Unharmed Steps) (State.start [[0]]) := .start rfl
  have stopped := start.executeGuarded [.prepare true, .request true, .createFormFile true, .walk,
    .handOver, .copy true, .streamed, .copierEnds, .copyFinished, .writeField true,
    .closeMultipart true, .unwindPipes, .unwindMultipart true, .unwindWriter,
    .clientEnds (.response true), .clientReturned, .unwindErrChan, .receiveClosed,
    .readResponse true, .unwindMain false, .tickerStops] (by simp [Unharmed]) rfl
  exact ⟨_, stopped, rfl, ⟨⟨true, rfl⟩, .inr rfl, .inr rfl, .inr rfl⟩,
    (push_ends_of_unharmed [[0]]).2 _ stopped rfl⟩

/-- The writer sends to the function, which waits for the client, which waits for the writer. -/
theorem push_hangs_when_archive_fails :
    ¬Inevitable Steps Prompt Finished (State.start [[0]]) := by
  intro inevitable
  have prepared := inevitable.after (by simp [Finished, State.start]) (.prepare true) rfl
  have requested := prepared.after (by simp [Finished]) (.request true) rfl
  have created := requested.after (by simp [Finished]) (.createFormFile true) rfl
  have failed := created.after (by simp [Finished]) .archiveFails rfl
  refine Inevitable.not_of_stuck (by simp [Finished]) ?_ failed
  intro label after taken
  cases label <;>
    simp [Steps, State.step, State.mainStep, State.writerStep,
      State.otherStep, State.start, State.pwClosed, State.srcClosed,
      State.writerClosed, Prompt] at taken ⊢

end Wings.Transfer
