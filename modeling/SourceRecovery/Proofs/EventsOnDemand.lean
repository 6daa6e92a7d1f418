import SourceRecovery.Pipeline
import SourceRecovery.Proofs.Sequences

/-! Events that are asked for one at a time, while whoever asks changes the disk in between. Only
the first request looks at the disk: it gathers all parts of the input, and every later one is
answered from them. So the events are those of the input as it was, whatever is done with each. -/
namespace SourceRecovery.Pipeline

variable {sources : List Source} {d d' : Disk} {p : Path}

/-- How far the events of an input have been asked for. -/
inductive Pending where
  | untouched
  | parts (rest : List Part)
  | documents (rest : List Document) (fault : Option Fault) (others : List Part)

inductive Supply where
  | event (e : Event) (rest : Pending)
  | ended (fault : Option Fault)

def nextPart (p : Path) : List Part → Supply
  | [] => .ended none
  | .issue i :: rest =>
    .event (.containerIssue ⟨s!"{p.render} ({i.source})", i.reason⟩) (.parts rest)
  | .container c :: rest =>
    .event (.opened ⟨p.render, c.documentCount⟩)
      (.documents c.documents.items c.documents.fault rest)

def closeTable (p : Path) (others : List Part) : Fault → Supply
  | .format reason =>
    .event (.containerIssue ⟨p.render, "document table is corrupt, " ++ reason⟩) (.parts others)
  | fault => .ended (some fault)

def nextDocument (p : Path) (fault : Option Fault) (others : List Part) : List Document → Supply
  | [] =>
    match fault with
    | none => nextPart p others
    | some fault => closeTable p others fault
  | document :: rest =>
    match contribution document with
    | .error fault => closeTable p others fault
    | .ok none => nextDocument p fault others rest
    | .ok (some extracted) => .event (extractedEvent extracted) (.documents rest fault others)

def supplySkip (p : Path) (reason : String) : Supply :=
  .event (.skipped ⟨p.render, reason⟩) (.parts [])

def firstSupply (sources : List Source) (d : Disk) (p : Path) : Supply :=
  match sourceFor d p sources with
  | .error fault => .ended (some fault)
  | .ok none => supplySkip p "not dll, exe or pdb"
  | .ok (some source) =>
    let parts := source.parts d p
    match parts.fault with
    | some (.format reason) => supplySkip p ("not supported image, " ++ reason)
    | some (.system reason) => supplySkip p ("cannot read, " ++ reason)
    | some (.disk (.refused cause q)) =>
      supplySkip p ("cannot read, " ++ (Disk.Error.refused cause q).message)
    | some fault => .ended (some fault)
    | none => nextPart p parts.items

def next (sources : List Source) (d : Disk) (p : Path) : Pending → Supply
  | .untouched => firstSupply sources d p
  | .parts rest => nextPart p rest
  | .documents rest fault others => nextDocument p fault others rest

/-- All events are asked for, and each of them is dealt with before the next one. -/
inductive Demands {β : Type} (sources : List Source) (p : Path) (act : Disk → Event → Disk × β) :
    Disk → Pending → Disk → List β → Option Fault → Prop
  | ended {d pending fault} (h : next sources d p pending = .ended fault) :
      Demands sources p act d pending d [] fault
  | event {d pending e rest after shown fault} (h : next sources d p pending = .event e rest)
      (hrest : Demands sources p act (act d e).1 rest after shown fault) :
      Demands sources p act d pending after ((act d e).2 :: shown) fault

def tableEvents (p : Path) (extracted : Sequence Extracted) : Sequence Event :=
  match extracted.fault with
  | some (.format reason) =>
    .ofList (extracted.items.map extractedEvent ++
      [.containerIssue ⟨p.render, "document table is corrupt, " ++ reason⟩])
  | fault => ⟨extracted.items.map extractedEvent, fault⟩

def Pending.events (sources : List Source) (d : Disk) (p : Path) : Pending → Sequence Event
  | .untouched => (read sources d p).events
  | .parts rest => Sequence.concatMap (partEvents p) rest
  | .documents rest fault others =>
    (tableEvents p ((contributions rest).append ⟨[], fault⟩)).append
      (Sequence.concatMap (partEvents p) others)

/-- An answer says what all events to come begin with, on whatever disk the rest is asked for. -/
def Supply.Begins (sources : List Source) (p : Path) (all : Sequence Event) : Supply → Prop
  | .event e rest => ∀ d, all = (rest.events sources d p).after [e]
  | .ended fault => all = ⟨[], fault⟩

theorem partEvents_container (p : Path) (c : Container) :
    partEvents p (.container c) =
      (tableEvents p (extract c)).after [.opened ⟨p.render, c.documentCount⟩] := by
  simp only [partEvents, tableEvents]
  generalize extract c = extracted
  obtain ⟨items, fault⟩ := extracted
  cases fault with
  | none => rfl
  | some fault => cases fault <;> rfl

theorem nextPart_begins (p : Path) (parts : List Part) :
    (nextPart p parts).Begins sources p (Sequence.concatMap (partEvents p) parts) := by
  cases parts with
  | nil => rfl
  | cons part rest =>
    cases part with
    | issue i => exact fun _ => rfl
    | container c =>
      intro d
      rw [Sequence.concatMap, partEvents_container, Sequence.after_append]
      rfl

theorem closeTable_begins (p : Path) (others : List Part) (fault : Fault) :
    (closeTable p others fault).Begins sources p
      ((tableEvents p ⟨[], some fault⟩).append (Sequence.concatMap (partEvents p) others)) := by
  cases fault with
  | format reason => exact fun _ => rfl
  | _ => rfl

theorem contributions_cons (document : Document) (rest : List Document) :
    contributions (document :: rest) =
      match contribution document with
      | .error fault => ⟨[], some fault⟩
      | .ok extracted => (contributions rest).after extracted.toList := by
  simp only [contributions, Sequence.ofSteps]
  cases contribution document with
  | error fault => rfl
  | ok extracted => cases extracted <;> rfl

theorem tableEvents_after (p : Path) (extracted : Extracted) (s : Sequence Extracted) :
    tableEvents p (s.after [extracted]) = (tableEvents p s).after [extractedEvent extracted] := by
  simp only [tableEvents, Sequence.after]
  split <;> simp [Sequence.ofList]

theorem nextDocument_begins (p : Path) (fault : Option Fault) (others : List Part)
    (documents : List Document) :
    (nextDocument p fault others documents).Begins sources p
      (Pending.events sources d p (.documents documents fault others)) := by
  induction documents with
  | nil =>
    cases fault with
    | none => exact nextPart_begins p others
    | some fault => exact closeTable_begins p others fault
  | cons document rest ih =>
    simp only [nextDocument, Pending.events, contributions_cons]
    cases contribution document with
    | error fault => exact closeTable_begins p others fault
    | ok extracted =>
      cases extracted with
      | none => exact ih
      | some extracted =>
        intro d'
        simp only [Option.toList, Sequence.after_append, tableEvents_after]
        rfl

theorem firstSupply_begins (sources : List Source) (d : Disk) (p : Path) :
    (firstSupply sources d p).Begins sources p (read sources d p).events := by
  rw [firstSupply, read]
  cases sourceFor d p sources with
  | error fault => rfl
  | ok found =>
    cases found with
    | none => exact fun _ => rfl
    | some source =>
      simp only [readWith]
      cases (source.parts d p).fault with
      | none => exact nextPart_begins p (source.parts d p).items
      | some fault =>
        cases fault with
        | format | system => exact fun _ => rfl
        | disk e =>
          cases e with
          | refused => exact fun _ => rfl
          | zeroInPath => rfl
        | _ => rfl

theorem next_begins (sources : List Source) (d : Disk) (p : Path) (pending : Pending) :
    (next sources d p pending).Begins sources p (pending.events sources d p) := by
  cases pending with
  | untouched => exact firstSupply_begins sources d p
  | parts rest => exact nextPart_begins p rest
  | documents rest fault others => exact nextDocument_begins p fault others rest

/-- Dealing with each event before the next one is asked for comes to the same as dealing one after
another with all that the disk held at first. -/
theorem demands_iff {β : Type} {act : Disk → Event → Disk × β} {pending : Pending} {after : Disk}
    {shown : List β} {fault : Option Fault} :
    Demands sources p act d pending after shown fault ↔
      (after, shown) = feed act d (pending.events sources d p).items ∧
        fault = (pending.events sources d p).fault := by
  constructor
  · intro h
    induction h with
    | @ended d pending fault h =>
      have hbegins := next_begins sources d p pending
      rw [h] at hbegins
      rw [show pending.events sources d p = _ from hbegins]
      exact ⟨rfl, rfl⟩
    | @event d pending e rest after shown fault h _ ih =>
      have hbegins := next_begins sources d p pending
      rw [h] at hbegins
      rw [hbegins (act d e).1]
      obtain ⟨hrun, hfault⟩ := ih
      refine ⟨?_, hfault⟩
      simp only [Sequence.after, List.singleton_append, feed, ← hrun]
  · generalize hall : (pending.events sources d p).items = items
    induction items generalizing d pending after shown with
    | nil =>
      rintro ⟨hrun, hfault⟩
      have hbegins := next_begins sources d p pending
      cases hnext : next sources d p pending with
      | ended stop =>
        rw [hnext] at hbegins
        cases hrun
        rw [hfault, show pending.events sources d p = _ from hbegins]
        exact .ended hnext
      | event e rest =>
        rw [hnext] at hbegins
        rw [hbegins d] at hall
        cases hall
    | cons first others ih =>
      rintro ⟨hrun, hfault⟩
      have hbegins := next_begins sources d p pending
      cases hnext : next sources d p pending with
      | ended stop =>
        rw [hnext] at hbegins
        rw [show pending.events sources d p = _ from hbegins] at hall
        cases hall
      | event e rest =>
        rw [hnext] at hbegins
        rw [hbegins (act d e).1] at hall hfault
        cases hall
        cases hrun
        exact .event hnext (ih rfl ⟨rfl, hfault⟩)

def reported : Except Output.WriteIssue Output.WrittenFile → Outcome
  | .ok written => .written written
  | .error issue => .writeIssue issue

theorem settle_file (options : Output.Options) (d : Disk) (f : ExtractedFile) :
    settle options d (.file f) =
      ((Output.write d options f.name f.text).1,
        reported (Output.write d options f.name f.text).2) := by
  rw [settle]
  generalize Output.write d options f.name f.text = written
  obtain ⟨after, issue | file⟩ := written <;> rfl

theorem settleAll_eq_feed (options : Output.Options) (d : Disk) (events : List Event) :
    settleAll options d events = feed (settle options) d events := by
  induction events generalizing d with
  | nil => rfl
  | cons event rest ih => simp only [settleAll, feed, ih]

theorem extractFile_eq_feed (sources : List Source) (options : Output.Options) (d : Disk)
    (p : Path) :
    let events := (read sources d p).events
    let run := feed (settle options) d events.items
    extractFile sources options d p = ⟨(read sources d p).note, ⟨run.2, events.fault⟩, run.1⟩ := by
  simp only [extractFile, settleAll_eq_feed]

end SourceRecovery.Pipeline
