import SourceRecovery.Proofs.BuiltinInputs
import SourceRecovery.Shelf

/-! The tools of a server that has recovered the sources of one input. They are asked in any order
and each tells of the same files, the first of each name that was recovered, in its own way. What is
asked in between and what becomes of the disk makes no difference, nor does the engine that patterns
are searched for with: of it no more is known than that it refuses a pattern or tests lines. -/
namespace SourceRecovery

def Event.file? : Event → Option ExtractedFile
  | .file f => some f
  | _ => none

namespace Shelf

open Pipeline (Source Reading Unexaminable builtinSources builtin_taken builtin_events_end linkTo)

variable {s : Shelf} {f : ExtractedFile} {name : String} {events : List Event}

def firstFile (events : List Event) (name : String) : Option ExtractedFile :=
  (events.filterMap Event.file?).find? (·.name = name)

def Distinct (s : Shelf) : Prop := s.files.Pairwise fun f g => f.name ≠ g.name

theorem file?_add (s : Shelf) (f : ExtractedFile) (name : String) :
    (s.add f).file? name = (s.file? name).or ([f].find? (·.name = name)) := by
  rw [add]
  cases hold : s.file? f.name with
  | none => exact List.find?_append
  | some old =>
    by_cases hname : f.name = name
    · subst hname
      rw [hold]
      rfl
    · simp [hname]

theorem Distinct.add (h : s.Distinct) (f : ExtractedFile) : (s.add f).Distinct := by
  rw [Shelf.add]
  cases hold : s.file? f.name with
  | some old => exact h
  | none =>
    have hnew : ∀ g ∈ s.files, ¬ g.name = f.name := by
      simpa [file?] using hold
    apply List.pairwise_append.mpr
    refine ⟨h, List.pairwise_singleton _ f, ?_⟩
    intro g hg other hother
    cases List.mem_singleton.mp hother
    exact hnew g hg

theorem ofEvents_eq (events : List Event) :
    ofEvents events = (events.filterMap Event.file?).foldl add ⟨[]⟩ := by
  rw [ofEvents]
  generalize (⟨[]⟩ : Shelf) = s
  induction events generalizing s with
  | nil => rfl
  | cons event rest ih =>
    rw [List.foldl_cons, ih]
    cases event <;> rfl

theorem file?_foldl_add (files : List ExtractedFile) (s : Shelf) (name : String) :
    (files.foldl add s).file? name = (s.file? name).or (files.find? (·.name = name)) := by
  induction files generalizing s with
  | nil => exact Option.or_none.symm
  | cons f rest ih =>
    have hfind : (f :: rest).find? (·.name = name) =
        ([f].find? (·.name = name)).or (rest.find? (·.name = name)) := by
      rw [← List.find?_append]
      rfl
    rw [List.foldl_cons, ih, file?_add, hfind, Option.or_assoc]

theorem Distinct.foldl_add (h : s.Distinct) (files : List ExtractedFile) :
    (files.foldl Shelf.add s).Distinct := by
  induction files generalizing s with
  | nil => exact h
  | cons f rest ih => exact ih (h.add f)

/-- A shelf with the files that a map has under their names, each of them once. -/
structure Holds (m : String → Option ExtractedFile) (s : Shelf) : Prop where
  file? : ∀ name, s.file? name = m name
  distinct : s.Distinct

theorem ofEvents_holds (events : List Event) : Holds (firstFile events) (ofEvents events) := by
  rw [ofEvents_eq]
  constructor
  · intro name
    exact file?_foldl_add (events.filterMap Event.file?) ⟨[]⟩ name
  · exact Distinct.foldl_add List.Pairwise.nil (events.filterMap Event.file?)

section Holding

variable {m : String → Option ExtractedFile} (h : Holds m s)
include h

theorem Holds.mem_iff : f ∈ s.files ↔ m f.name = some f := by
  rw [← h.file?]
  constructor
  · exact find?_key_eq_some (fun f : ExtractedFile => f.name) h.distinct
  · exact List.mem_of_find?_eq_some

theorem Holds.mem_sorted_iff : f ∈ s.sorted ↔ m f.name = some f :=
  List.mem_mergeSort.trans h.mem_iff

theorem Holds.sorted_ascending : s.sorted.Pairwise fun f g => f.name < g.name := by
  have hordered : s.sorted.Pairwise fun f g => decide (f.name ≤ g.name) = true :=
    List.pairwise_mergeSort
      (fun f g k hfg hgk => by
        simpa using String.le_trans (of_decide_eq_true hfg) (of_decide_eq_true hgk))
      (fun f g => by simpa using String.le_total f.name g.name) s.files
  have hdistinct : s.sorted.Pairwise fun f g => f.name ≠ g.name :=
    (List.mergeSort_perm s.files _).pairwise_iff (fun hne => Ne.symm hne) |>.mpr h.distinct
  refine (hordered.and hdistinct).imp ?_
  rintro f g ⟨hle, hne⟩
  refine Classical.byContradiction fun hlt => ?_
  exact hne (String.le_antisymm (of_decide_eq_true hle) (String.not_lt.mp hlt))

end Holding

inductive Call where
  | list (start : String)
  | read (name : String)
  | search (pattern : String) (limit : Int)
  deriving DecidableEq, Repr

def answer (engine : Pattern.Engine) (s : Shelf) : Call → Except Pattern.Error String
  | .list start => .ok (s.list start)
  | .read name => .ok (s.read name)
  | .search pattern limit => s.search pattern limit engine

def notFound (start : String) : String := s!"No files found matching '{start}'"

/-- What is to be listed: each name that begins so, once and in order. -/
structure Lists (m : String → Option ExtractedFile) (start : String) (found : List ExtractedFile) :
    Prop where
  mem_iff : ∀ f, f ∈ found ↔ m f.name = some f ∧ start.toList <+: f.name.toList
  ascending : found.Pairwise fun f g => f.name < g.name

/-- A line of the text that there is under a name, which passes the test. -/
structure IsHit (m : String → Option ExtractedFile) (test : List Char → Bool) (h : Hit) : Prop where
  positive : 1 ≤ h.number
  line : ∃ f, m h.name = some f ∧ (linesOf f.text)[h.number - 1]? = some h.line
  found : test h.line = true

/-- What a tool tells of the files that a map has under their names. -/
inductive Tells (engine : Pattern.Engine) (m : String → Option ExtractedFile) :
    Call → Except Pattern.Error String → Prop
  | file {name : String} {f : ExtractedFile} (hfile : m name = some f) :
      Tells engine m (.read name) (.ok f.text)
  | missing {name : String} (hfile : m name = none) :
      Tells engine m (.read name) (.ok ("Error: File not found: " ++ name))
  | rows {start found text} (hfound : Lists m start found) (hsome : found ≠ [])
      (htext : text = joinLines (found.map listingRow)) (hother : text ≠ notFound start) :
      Tells engine m (.list start) (.ok text)
  | nothing {start} (hfound : Lists m start []) :
      Tells engine m (.list start) (.ok (notFound start))
  | hits {pattern test limit hits} (htest : engine pattern = .ok test)
      (hhits : ∀ h ∈ hits, IsHit m test h) (hsome : hits ≠ []) :
      Tells engine m (.search pattern limit) (.ok (joinLines (hits.map Hit.row)))
  | noHit {pattern test limit} (htest : engine pattern = .ok test) :
      Tells engine m (.search pattern limit) (.ok ("No results found for: " ++ pattern))
  | malformed {pattern e limit} (herror : engine pattern = .error e)
      (hflaw : e.isMalformed = true) :
      Tells engine m (.search pattern limit) (.ok ("Error: Invalid pattern: " ++ e.message pattern))
  | unsearchable {pattern e limit} (herror : engine pattern = .error e)
      (hflaw : e.isMalformed = false) :
      Tells engine m (.search pattern limit) (.error e)

theorem joinLines_concat (front : List String) (last : String) :
    ∃ before, joinLines (front ++ [last]) = before ++ last := by
  by_cases hfront : front = []
  · subst hfront
    exact ⟨"", (String.empty_append).symm⟩
  · rw [joinLines, String.intercalate_append_of_ne_nil hfront (List.cons_ne_nil last [])]
    exact ⟨_, rfl⟩

theorem listingRow_last (f : ExtractedFile) :
    (listingRow f).toList.getLast? = some (if f.compressed then ']' else ' ') := by
  rw [listingRow, String.toList_append, List.getLast?_append]
  cases f.compressed with
  | true => rfl
  | false =>
    rw [String.toList_append, List.getLast?_append]
    rfl

theorem notFound_last (start : String) : (notFound start).toList.getLast? = some '\'' := by
  have hquote : notFound start = (("No files found matching '" ++ start) ++ "'") := rfl
  rw [hquote, String.toList_append, List.getLast?_append]
  rfl

/-- A row ends in a blank or a bracket, never in a quotation mark. -/
theorem joinLines_rows_ne (start : String) {found : List ExtractedFile} (h : found ≠ []) :
    joinLines (found.map listingRow) ≠ notFound start := by
  obtain ⟨front, f, hfound⟩ : ∃ front f, found = front ++ [f] :=
    ⟨_, _, (List.dropLast_append_getLast h).symm⟩
  obtain ⟨before, hbefore⟩ := joinLines_concat (front.map listingRow) (listingRow f)
  rw [hfound, List.map_append, List.map_singleton, hbefore]
  intro hsame
  have hlast := notFound_last start
  rw [← hsame, String.toList_append, List.getLast?_append, listingRow_last, Option.some_or] at hlast
  split at hlast <;> cases hlast

theorem mem_searchLines {test : List Char → Bool} {room number : Nat} {lines : List (List Char)}
    {hit : Hit} (h : hit ∈ searchLines test name room number lines) :
    hit.name = name ∧ test hit.line = true ∧
      ∃ i, hit.number = number + i ∧ lines[i]? = some hit.line := by
  induction lines generalizing room number with
  | nil => cases room <;> exact absurd h List.not_mem_nil
  | cons line rest ih =>
    -- A line further on counts from the next number.
    have hlater : ∀ {room}, hit ∈ searchLines test name room (number + 1) rest →
        hit.name = name ∧ test hit.line = true ∧
          ∃ i, hit.number = number + i ∧ (line :: rest)[i]? = some hit.line := by
      intro room hrest
      obtain ⟨hname, hfound, i, hnumber, hline⟩ := ih hrest
      exact ⟨hname, hfound, i + 1, by omega, hline⟩
    cases room with
    | zero => exact absurd h List.not_mem_nil
    | succ room =>
      rw [searchLines] at h
      split at h
      · rename_i hmatch
        rcases List.mem_cons.mp h with rfl | hrest
        · exact ⟨rfl, hmatch, 0, rfl, rfl⟩
        · exact hlater hrest
      · exact hlater h

theorem mem_searchFiles {test : List Char → Bool} {room : Nat} {files : List ExtractedFile}
    {hit : Hit} (h : hit ∈ searchFiles test room files) :
    ∃ f ∈ files, ∃ room, hit ∈ searchLines test f.name room 1 (linesOf f.text) := by
  induction files generalizing room with
  | nil => exact absurd h List.not_mem_nil
  | cons f rest ih =>
    rw [searchFiles] at h
    split at h
    · rcases List.mem_append.mp h with hfirst | hrest
      · exact ⟨f, List.mem_cons_self, room, hfirst⟩
      · obtain ⟨g, hg, hlater⟩ := ih hrest
        exact ⟨g, List.mem_cons_of_mem f hg, hlater⟩
    · exact ⟨f, List.mem_cons_self, room, h⟩

section Holding

variable {engine : Pattern.Engine} {m : String → Option ExtractedFile} (h : Holds m s)
include h

theorem Holds.tells_read (name : String) : Tells engine m (.read name) (.ok (s.read name)) := by
  rw [read, h.file?]
  cases hfile : m name with
  | some f => exact .file hfile
  | none => exact .missing hfile

theorem Holds.lists (start : String) :
    Lists m start (s.sorted.filter fun f => start.toList.isPrefixOf f.name.toList) := by
  constructor
  · intro f
    rw [List.mem_filter, h.mem_sorted_iff, List.isPrefixOf_iff_prefix]
  · exact h.sorted_ascending.filter _

theorem Holds.tells_list (start : String) :
    Tells engine m (.list start) (.ok (s.list start)) := by
  have hfound := h.lists start
  rw [list]
  generalize s.sorted.filter _ = found at hfound
  cases found with
  | nil => exact .nothing hfound
  | cons f rest =>
    have hsome : f :: rest ≠ [] := List.cons_ne_nil f rest
    exact .rows hfound hsome rfl (joinLines_rows_ne start hsome)

theorem Holds.isHit {test : List Char → Bool} {room : Nat} {hit : Hit}
    (hhit : hit ∈ searchFiles test room s.sorted) : IsHit m test hit := by
  obtain ⟨f, hf, room, hline⟩ := mem_searchFiles hhit
  obtain ⟨hname, hfound, i, hnumber, hline⟩ := mem_searchLines hline
  refine ⟨by omega, ⟨f, ?_, ?_⟩, hfound⟩
  · rw [hname]
    exact h.mem_sorted_iff.mp hf
  · rw [hnumber, Nat.add_sub_cancel_left]
    exact hline

theorem Holds.tells_search (pattern : String) (limit : Int) :
    Tells engine m (.search pattern limit) (s.search pattern limit engine) := by
  rw [search]
  cases hengine : engine pattern with
  | error e =>
    dsimp only
    split
    · rename_i hflaw
      exact .malformed hengine hflaw
    · rename_i hflaw
      exact .unsearchable hengine (Bool.eq_false_iff.mpr hflaw)
  | ok test =>
    have hhits : ∀ hit ∈ searchFiles test (max limit 1).toNat s.sorted, IsHit m test hit :=
      fun _ => h.isHit
    dsimp only
    generalize searchFiles test (max limit 1).toNat s.sorted = hits at hhits
    cases hits with
    | nil => exact .noHit hengine
    | cons hit rest => exact .hits hengine hhits (List.cons_ne_nil hit rest)

theorem Holds.tells (c : Call) : Tells engine m c (s.answer engine c) := by
  cases c with
  | list start => exact h.tells_list start
  | read name => exact h.tells_read name
  | search pattern limit => exact h.tells_search pattern limit

end Holding

/-- A server and the disk that it runs on. Of these only the shelf is its own. -/
structure Server where
  shelf : Shelf
  disk : Disk
  deriving DecidableEq, Repr

def Server.start (sources : List Source) (d : Disk) (p : Path) : Except Fault Server :=
  (load sources d p).map (⟨·, d⟩)

theorem Server.start_of_end {sources : List Source} {d : Disk} {p : Path}
    (h : (Pipeline.read sources d p).events.fault = none) :
    Server.start sources d p =
      .ok ⟨ofEvents (Pipeline.read sources d p).events.items, d⟩ := by
  rw [Server.start, load]
  simp only [h]
  rfl

theorem Server.start_of_fault {sources : List Source} {d : Disk} {p : Path} {fault : Fault}
    (h : (Pipeline.read sources d p).events.fault = some fault) :
    Server.start sources d p = .error fault := by
  rw [Server.start, load]
  simp only [h]
  rfl

inductive Action where
  | call (c : Call)
  | change (d : Disk)
  deriving DecidableEq, Repr

def Action.call? : Action → Option Call
  | .call c => some c
  | .change _ => none

abbrev Exchange := Call × Except Pattern.Error String

def Server.act (engine : Pattern.Engine) (s : Server) : Action → Server × Option Exchange
  | .call c => (s, some (c, s.shelf.answer engine c))
  | .change d => ({ s with disk := d }, none)

def Server.exchanges (engine : Pattern.Engine) (s : Server) (actions : List Action) :
    List Exchange :=
  (feed (Server.act engine) s actions).2.filterMap id

theorem Server.exchanges_eq (engine : Pattern.Engine) (s : Server) (actions : List Action) :
    s.exchanges engine actions =
      (actions.filterMap Action.call?).map fun c => (c, s.shelf.answer engine c) := by
  induction actions generalizing s with
  | nil => rfl
  | cons action rest ih =>
    cases action with
    | call c => exact congrArg ((c, s.shelf.answer engine c) :: ·) (ih s)
    | change d => exact ih { s with disk := d }

/-- If the events of an input end in a fault there is no server. Else there is one, and its tools
tell of the first file of each name among the events, in whatever order they are called and
whatever becomes of the disk and whichever engine they search with. With the built-in sources the
events of an input that can be looked at never end in a fault. -/
theorem tools_tell_first_files (engine : Pattern.Engine) (sources : List Source) (d : Disk)
    (p : Path) :
    let events := (Pipeline.read sources d p).events
    (∀ fault, events.fault = some fault → Server.start sources d p = .error fault) ∧
    (events.fault = none → ∃ server, Server.start sources d p = .ok server ∧
      (∀ c, Tells engine (firstFile events.items) c (server.shelf.answer engine c)) ∧
      ∀ actions, server.exchanges engine actions =
        (actions.filterMap Action.call?).map fun c => (c, server.shelf.answer engine c)) ∧
    (sources = builtinSources → ¬ Unexaminable d p → events.fault = none) := by
  intro events
  refine ⟨fun fault => Server.start_of_fault, fun hend => ?_, ?_⟩
  · refine ⟨⟨ofEvents events.items, d⟩, Server.start_of_end hend, ?_, ?_⟩
    · exact (ofEvents_holds events.items).tells
    · exact Server.exchanges_eq engine ⟨ofEvents events.items, d⟩
  · rintro rfl hexamined
    have htaken := builtin_taken d p
    generalize hreading : Pipeline.read builtinSources d p = reading at htaken
    have hevents : events = reading.events := congrArg Reading.events hreading
    rw [hevents]
    cases htaken with
    | unexaminable h => exact absurd h hexamined
    | passed => rfl
    | opened hsource hread => exact builtin_events_end hsource hread

def sharingSource : Source where
  label := "sharing"
  handles := fun _ _ => .ok true
  parts := fun _ _ =>
    let raw (text : UInt8) : Sequence Record := .ofList [⟨embeddedSourceKind, [0, 0, 0, 0, text]⟩]
    let stored : Sequence Record :=
      .ofList [⟨embeddedSourceKind, [1, 0, 0, 0, 1, 1, 0, 254, 255, 67]⟩]
    .ofList
      [.container ⟨2, .ofList [⟨1, "b.cs", none, raw 65⟩, ⟨2, "b.cs", none, raw 66⟩]⟩,
        .container ⟨2, .ofList [⟨1, "b.cs", none, stored⟩, ⟨2, "a.cs", none, stored⟩]⟩]

theorem shared_names_told_once :
    let d : Disk := ⟨⟨.root, []⟩, []⟩
    let p : Path := ⟨.relative, ["in"]⟩
    let m := firstFile (Pipeline.read [sharingSource] d p).events.items
    let b : ExtractedFile := ⟨"b.cs", "A", false⟩
    let a : ExtractedFile := ⟨"a.cs", "C", true⟩
    m "b.cs" = some b ∧ m "a.cs" = some a ∧
    ∃ server, Server.start [sharingSource] d p = .ok server ∧
      server.exchanges Pattern.engine [.call (.read "b.cs"), .change (linkTo "in"),
        .call (.list ""), .call (.read "c.cs"), .call (.search "[AB]" 20)] =
        [(.read "b.cs", .ok "A"), (.list "", .ok (listingRow a ++ "\n" ++ listingRow b)),
          (.read "c.cs", .ok "Error: File not found: c.cs"),
          (.search "[AB]" 20, .ok "b.cs:1: A")] := by
  intro d p m b a
  have hend : (Pipeline.read [sharingSource] d p).events.fault = none := by decide +kernel
  obtain ⟨_, hstarts, _⟩ := tools_tell_first_files Pattern.engine [sharingSource] d p
  obtain ⟨server, hstart, _, hexchanges⟩ := hstarts hend
  refine ⟨by decide +kernel, by decide +kernel, server, hstart, ?_⟩
  have hfiles : ofEvents (Pipeline.read [sharingSource] d p).events.items = ⟨[b, a]⟩ := by
    decide +kernel
  have hserver : server = ⟨⟨[b, a]⟩, d⟩ := by
    rw [← hfiles]
    exact Except.ok.inj (hstart.symm.trans (Server.start_of_end hend))
  have hsorted : Shelf.sorted ⟨[b, a]⟩ = [a, b] := by simp [sorted, List.mergeSort, a, b]
  have hlist : Shelf.list ⟨[b, a]⟩ "" = listingRow a ++ "\n" ++ listingRow b := by
    rw [list, hsorted]
    decide +kernel
  have hsearch : Shelf.search ⟨[b, a]⟩ "[AB]" 20 = .ok "b.cs:1: A" := by
    rw [search, hsorted]
    decide +kernel
  rw [hexchanges, hserver, ← hlist, ← hsearch]
  rfl

end Shelf
end SourceRecovery
