import Mathlib.Data.List.Infix
import Wings.Library.LexicalPath
import Wings.Uploads.Patch

/-!
# Downloads over FTP and SCP

A goroutine writes what an FTP server sends to a pipe, up to the announced size; the pipe is closed
for it only if it has failed. The server may end with an error, but does not stall. What the calls
of the SCP function come to is part of each pass of its loop; its result is left out.
-/

namespace Wings.Import.Ftp

open Transition

/-- The announced and the sent size, and after how many bytes the local write fails, if it does. -/
structure Download where
  announced : Nat
  positive : 0 < announced
  sent : Nat
  failsAfter : Option Nat

/-- The goroutine. The flag tells whether `Retrieve` has returned an error. -/
inductive Sender where
  | retrieving
  | retrieved (failed : Bool)
  | closed (failed : Bool)
  | ended (failed : Bool)

/-- The function. The flag tells whether the local write has returned an error. -/
inductive Main where
  | writing
  | wrote (failed : Bool)
  | awaiting (failed : Bool)
  | returned

structure State where
  received : Nat
  sender : Sender
  main : Main

inductive Party where
  | pipe
  | sender
  | main

/-- What the local write returns, or nothing while it reads on. -/
def writeResult (download : Download) (received : Nat) (sender : Sender) : Option Bool :=
  if download.failsAfter.any (· ≤ received) then some true
  else if received = download.announced then some false
  else
    match sender with
    | .closed failed | .ended failed => some failed
    | _ => none

inductive Step (download : Download) : State → Party → State → Prop
  | transfer (nonempty : 0 < chunk) (sent : received + chunk ≤ download.sent)
    (wanted : received + chunk ≤ download.announced)
    (reads : writeResult download received .retrieving = none) :
      Step download ⟨received, .retrieving, .writing⟩ .pipe
        ⟨received + chunk, .retrieving, .writing⟩
  | retrieved (failed : Bool) :
      Step download ⟨download.sent, .retrieving, main⟩ .sender
        ⟨download.sent, .retrieved failed, main⟩
  | refused (unsent : received < download.sent) :
      Step download ⟨received, .retrieving, .awaiting true⟩ .sender
        ⟨received, .retrieved true, .awaiting true⟩
  | closeWriter :
      Step download ⟨received, .retrieved failed, main⟩ .sender ⟨received, .closed failed, main⟩
  | report : Step download ⟨received, .closed failed, main⟩ .sender ⟨received, .ended failed, main⟩
  | wrote (result : writeResult download received sender = some failed) :
      Step download ⟨received, sender, .writing⟩ .main ⟨received, sender, .wrote failed⟩
  | closeReader :
      Step download ⟨received, sender, .wrote failed⟩ .main ⟨received, sender, .awaiting failed⟩
  | receive :
      Step download ⟨received, .ended error, .awaiting failed⟩ .main
        ⟨received, .ended error, .returned⟩

def start : State := ⟨0, .retrieving, .writing⟩

def Finished (state : State) : Prop :=
  state.main = .returned ∧ ∃ failed, state.sender = .ended failed

def Sender.rank : Sender → Nat
  | .retrieving => 3
  | .retrieved _ => 2
  | .closed _ => 1
  | .ended _ => 0

def Main.rank : Main → Nat
  | .writing => 3
  | .wrote _ => 2
  | .awaiting _ => 1
  | .returned => 0

def measure (download : Download) (state : State) : Nat :=
  download.sent - state.received + state.sender.rank + state.main.rank

theorem measure_lt (taken : Step download state party after) :
    measure download after < measure download state := by
  cases taken <;> simp only [measure, Sender.rank, Main.rank] <;> omega

/-- The local write has returned without an error. -/
def Main.isContent : Main → Bool
  | .wrote false | .awaiting false => true
  | _ => false

structure Sound (download : Download) (state : State) : Prop where
  sent : state.received ≤ download.sent
  wanted : state.received ≤ download.announced
  content : state.sender = .retrieving → state.main.isContent = true →
    writeResult download state.received .retrieving = some false
  finished : state.main = .returned → Finished state

theorem Sound.step (sound : Sound download state) (taken : Step download state party after) :
    Sound download after := by
  obtain ⟨sent, wanted, content, finished⟩ := sound
  cases taken with
  | transfer nonempty fewer within => exact ⟨fewer, within, nofun, nofun⟩
  | retrieved failed | closeWriter =>
    exact ⟨sent, wanted, nofun, fun returned => nomatch finished returned⟩
  | refused => exact ⟨sent, wanted, nofun, nofun⟩
  | report | receive => exact ⟨sent, wanted, nofun, fun returned => ⟨returned, _, rfl⟩⟩
  | @wrote received sender failed result =>
    refine ⟨sent, wanted, fun retrieving isContent => ?_, nofun⟩
    cases failed with
    | true => nomatch isContent
    | false =>
      cases retrieving
      exact result
  | @closeReader received sender failed =>
    refine ⟨sent, wanted, fun retrieving isContent => content retrieving ?_, nofun⟩
    cases failed with
    | true => nomatch isContent
    | false => rfl

/-- No more is sent than was announced, or the local write fails up to there. -/
def Bounded (download : Download) : Prop :=
  download.sent ≤ download.announced ∨ ∃ bytes ∈ download.failsAfter, bytes ≤ download.announced

theorem Sound.progress (sound : Sound download state) (bounded : Bounded download) :
    Finished state ∨ ∃ party after, True ∧ Step download state party after := by
  obtain ⟨received, sender, main⟩ := state
  obtain ⟨sent, wanted, content, finished⟩ := sound
  cases sender with
  | retrieved error => exact .inr ⟨_, _, trivial, .closeWriter⟩
  | closed error => exact .inr ⟨_, _, trivial, .report⟩
  | ended error =>
    cases main with
    | writing =>
      have result : ∃ failed, writeResult download received (.ended error) = some failed := by
        unfold writeResult
        split_ifs <;> exact ⟨_, rfl⟩
      exact .inr ⟨_, _, trivial, .wrote result.choose_spec⟩
    | wrote failed => exact .inr ⟨_, _, trivial, .closeReader⟩
    | awaiting failed => exact .inr ⟨_, _, trivial, .receive⟩
    | returned => exact .inl (finished rfl)
  | retrieving =>
    rcases Nat.eq_or_lt_of_le sent with rfl | unsent
    · exact .inr ⟨_, _, trivial, .retrieved false⟩
    cases main with
    | writing =>
      cases result : writeResult download received .retrieving with
      | some failed => exact .inr ⟨_, _, trivial, .wrote result⟩
      | none =>
        have fewer : received < download.announced := by
          unfold writeResult at result
          split_ifs at result with _ full
          exact Nat.lt_of_le_of_ne wanted full
        exact .inr ⟨_, _, trivial, .transfer Nat.one_pos unsent fewer result⟩
    | wrote failed => exact .inr ⟨_, _, trivial, .closeReader⟩
    | awaiting failed =>
      cases failed with
      | true => exact .inr ⟨_, _, trivial, .refused unsent⟩
      | false =>
        have result : writeResult download received .retrieving = some false := content rfl rfl
        unfold writeResult at result
        split_ifs at result with fails full
        · cases result
        rcases bounded with fewer | ⟨bytes, isBytes, few⟩
        · exact absurd unsent (Nat.not_lt.2 (full ▸ fewer))
        · exact absurd ((Option.any_eq_true _ _).2 ⟨bytes, isBytes, by simpa [full] using few⟩) fails
    | returned => exact .inl (finished rfl)

end Wings.Import.Ftp

namespace Wings.Import.Scp

open LexicalPath SeparatedText

def scpReadLine (input : Text) : Option (Text × Text) :=
  if '\n' ∈ input then some (input.takeWhile (· ≠ '\n'), (input.dropWhile (· ≠ '\n')).tail)
  else none

def scpParseHeader (line : Text) : Option (Text × Int) :=
  match line.splitOn ' ' with
  | _ :: size :: first :: rest =>
    (Uploads.parseInt (String.ofList size)).map (separated ' ' (first :: rest), ·)
  | _ => none

def scpValidName (name : Text) : Bool :=
  name ≠ [] && !name.contains '\x00' && !name.contains '/' && !name.contains '\\' &&
    name ≠ ['.'] && name ≠ ['.', '.']

/-- A message, or the end of the loop. -/
inductive Message where
  | skip
  | time
  | directory (name : Text) (valid : scpValidName name = true)
  | finish
  | file (name : Text) (size : Int) (valid : scpValidName name = true)
  | stop

def named (code : Char) (line : Text) : Message :=
  match scpParseHeader line with
  | none => .stop
  | some (name, size) =>
    if valid : scpValidName name then
      if code = 'D' then .directory name valid else .file name size valid
    else .stop

def readMessage : Text → Message × Text
  | [] => (.stop, [])
  | '\x00' :: input => (.skip, input)
  | code :: input =>
    match scpReadLine input with
    | none => (.stop, [])
    | some (line, rest) =>
      (if code = 'T' then .time else if code = 'E' then .finish
        else if code = 'D' ∨ code = 'C' then named code line else .stop, rest)

/-- The directories created along a path, and whether all that were missing are. -/
def createDirectory (directories : List (List Text)) (room : Nat) (path : Text) :
    List (List Text) × Bool :=
  let missing := ((join path []).splitOn '/').inits.tail.filter (· ∉ directories)
  (missing.take room, missing.length ≤ room)

def createParent (directories : List (List Text)) (room : Nat) (directory : Text) :
    List (List Text) × Bool :=
  if directory = ['.'] ∨ directory = [] then ([], true)
  else createDirectory directories room directory

inductive Event where
  | opened (name target : Text) (created : List (List Text))
  | ended
  | parent (created : List (List Text))
  | written (name target : Text)
  deriving DecidableEq

/-- The variables of the loop, with the top of the stack and the latest event first. -/
structure Session where
  input : Text
  localStack : List Text
  directories : List (List Text)
  events : List Event
  returned : Bool

/-- How many directories can be created, and which calls succeed. -/
structure Calls where
  room : Nat
  acknowledged : Bool
  written : Bool
  confirmed : Bool

def handle (session : Session) (calls : Calls) : Session :=
  let target := join (session.localStack.headD [])
  if session.returned then session
  else
    match readMessage session.input with
    | (.stop, input) => { session with input := input, returned := true }
    | (.skip, input) => { session with input := input }
    | (.time, input) => { session with input := input, returned := !calls.acknowledged }
    | (.directory name _, input) =>
      let (created, all) := createDirectory session.directories calls.room (target name)
      { input := input
        localStack := if all then target name :: session.localStack else session.localStack
        directories := session.directories ++ created
        events := .opened name (target name) created :: session.events
        returned := !(all && calls.acknowledged) }
    | (.finish, input) =>
      { session with
        input := input
        localStack := if 1 < session.localStack.length then session.localStack.tail
          else session.localStack
        events := .ended :: session.events
        returned := !calls.acknowledged }
    | (.file name size _, input) =>
      let (created, all) := createParent session.directories calls.room (dir (target name))
      let begun := all && calls.acknowledged
      let rest := input.drop size.toNat
      { session with
        input := rest.tail
        directories := session.directories ++ created
        events := (if begun then [.written name (clean (target name))] else []) ++
          .parent created :: session.events
        returned := !(begun && calls.written && rest.head? == some '\x00' && calls.confirmed) }

def scpDownloadRecursive (localBase input : Text) (directories : List (List Text))
    (calls : List Calls) : Session :=
  calls.foldl handle ⟨input, [localBase], directories, [], false⟩

/-- The names of the directory headers that are open, the latest first. -/
def opened : List Event → List Text
  | [] => []
  | .opened name _ _ :: before => name :: opened before
  | .ended :: before => (opened before).tail
  | _ :: before => opened before

/-- Directories lie above the base, at it or below it. -/
def Along (root : List Text) (created : List (List Text)) : Prop :=
  ∀ directory ∈ created, directory <+: root ∨ root <+: directory

/-- Where an event takes place while directory headers are open. -/
def Event.At (root headers : List Text) : Event → Prop
  | .opened name target created =>
    target = relative (root ++ headers.reverse ++ [name]) ∧ Along root created
  | .ended => True
  | .parent created => Along root created
  | .written name target => target = relative (root ++ headers.reverse ++ [name])

def Placed (root : List Text) (events : List Event) : Prop :=
  ∀ later event before, events = later ++ event :: before → event.At root (opened before)

theorem Placed.cons (placed : Placed root events) (here : event.At root (opened events)) :
    Placed root (event :: events) := by
  intro later other before split
  cases later with
  | nil =>
    cases split
    exact here
  | cons first later =>
    cases split
    exact placed later other before rfl

structure Sound (root : List Text) (session : Session) : Prop where
  placed : Placed root session.events
  proper : session.returned = false → ∀ word ∈ opened session.events, Proper word
  stack : session.returned = false → session.localStack =
    (opened session.events).tails.map fun headers => relative (root ++ headers.reverse)

theorem proper_of_valid (valid : scpValidName name = true) : Proper name := by
  simp only [scpValidName, Bool.and_eq_true, decide_eq_true_eq, Bool.not_eq_true',
    List.contains_eq_mem, decide_eq_false_iff_not] at valid
  obtain ⟨⟨⟨⟨⟨nonempty, _⟩, noSlash⟩, _⟩, notDot⟩, notDotDot⟩ := valid
  exact ⟨nonempty, noSlash, notDot, notDotDot⟩

theorem along_createDirectory (settled : Settled words) (nonempty : words ≠ [])
    (below : root <+: words) :
    Along root (createDirectory directories room (relative words)).1 := by
  intro directory member
  have missing := List.mem_of_mem_filter (List.mem_of_mem_take member)
  rw [settled.join_nil, relative, if_neg nonempty,
    splitOn_separated (fun word member => (settled.plain word member).2) nonempty] at missing
  exact List.prefix_or_prefix_of_prefix ((List.mem_inits _ _).1 (List.mem_of_mem_tail missing)) below

theorem along_createParent (settled : Settled words) (below : root <+: words) :
    Along root (createParent directories room (relative words)).1 := by
  rw [createParent]
  split
  · exact List.forall_mem_nil _
  · rename_i named
    refine along_createDirectory settled (fun empty => named (.inl ?_)) below
    rw [empty, relative, if_pos rfl]

theorem Sound.handle (settled : Settled root) (sound : Sound root session) (calls : Calls) :
    Sound root (handle session calls) := by
  obtain ⟨placed, proper, stack⟩ := sound
  rw [Scp.handle]
  split
  · exact ⟨placed, proper, stack⟩
  · rename_i running
    replace running : session.returned = false := by simpa using running
    replace proper := proper running
    replace stack := stack running
    have here : Settled (root ++ (opened session.events).reverse) :=
      settled.append fun word member => proper word (List.mem_reverse.1 member)
    have parent : session.localStack.headD [] =
        relative (root ++ (opened session.events).reverse) := by
      rw [stack]
      cases opened session.events <;> rfl
    have below : root <+: root ++ (opened session.events).reverse := List.prefix_append _ _
    split
    · exact ⟨placed, nofun, nofun⟩
    · exact ⟨placed, fun _ => proper, fun _ => stack⟩
    · exact ⟨placed, fun _ => proper, fun _ => stack⟩
    · rename_i name valid _ _
      have target := here.join_word (proper_of_valid valid)
      rw [parent, target]
      refine ⟨placed.cons ⟨rfl, ?_⟩, fun _ => ?_, fun continued => ?_⟩
      · exact along_createDirectory (here.concat (proper_of_valid valid)) (by simp)
          (below.trans (List.prefix_append _ _))
      · exact List.forall_mem_cons.2 ⟨proper_of_valid valid, proper⟩
      · simp only [Bool.not_eq_false', Bool.and_eq_true] at continued
        dsimp only
        rw [if_pos continued.1, stack]
        simp only [opened, List.tails, List.map_cons, List.reverse_cons, List.append_assoc]
    · refine ⟨placed.cons trivial, fun _ word member => proper word (List.mem_of_mem_tail member), ?_⟩
      intro _
      rw [stack, opened]
      cases opened session.events <;> simp
    · rename_i name size valid _ _
      have isProper := proper_of_valid valid
      rw [parent, here.join_word isProper, here.dir_concat isProper,
        (here.concat isProper).clean_relative]
      have along : Along root (createParent session.directories calls.room _).1 :=
        along_createParent here below
      generalize createParent session.directories calls.room _ = result at along
      dsimp only
      have entered : Placed root (.parent result.1 :: session.events) := placed.cons along
      by_cases begun : (result.2 && calls.acknowledged) = true
      · rw [if_pos begun]
        exact ⟨entered.cons rfl, fun _ => proper, fun _ => stack⟩
      · rw [if_neg begun]
        exact ⟨entered, fun _ => proper, fun _ => stack⟩

end Wings.Import.Scp
