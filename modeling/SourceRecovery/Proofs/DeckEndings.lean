import SourceRecovery.Proofs.BuiltinInputs
import SourceRecovery.Proofs.DeckProgress

/-! How runs of the deck end. Looking through a source that is there fails with errors of the file
system only, and those end up in a message, as does whatever stops the extraction. So there is one
fault that a run does not report: that of asking whether the source is there. -/
namespace SourceRecovery

namespace Deck

open Pipeline (Source course burningSource linkTo linkTo_long_unexaminable)

variable {sources : List Source} {clock : Clock} {d : Disk} {f : Form}

/-- The messages of a run that ends: the counters, last of all with a status that is final, and a
line of the log. -/
def Ends (s : Progress) : Prop :=
  (s.stats.status = .complete ∨ s.stats.status = .error) ∧
    ∃ front line, s.messages = front ++ [.stats s.stats, .log line] ∧
      ∀ snapshot ∈ snapshots front, snapshot.status = .running

theorem ends_finish {s : Progress} {status : Status} (line : String)
    (hstatus : status = .complete ∨ status = .error)
    (hbefore : ∀ snapshot ∈ snapshots s.messages, snapshot.status = .running) :
    Ends (s.finish status line) :=
  ⟨hstatus, s.messages, line, finish_messages s status line, hbefore⟩

/-- However a run goes, it ends in a final state unless the source cannot be asked for. -/
theorem Goes.ends {ended : Progress × Option Fault} (hd : d.ZeroFree)
    (h : Goes sources clock d f ended) :
    ended.2 = none ∧ Ends ended.1 ∨ ∃ e, d.exists? (Path.ofString f.source) = .error e ∧
      ended = (begun clock d, some (.disk e)) := by
  have hnone : ∀ snapshot ∈ snapshots (begun clock d).messages, snapshot.status = .running :=
    fun _ hmem => absurd hmem List.not_mem_nil
  cases h with
  | unexamined hthere => exact .inr ⟨_, hthere, rfl⟩
  | missing => exact .inl ⟨rfl, ends_finish _ (.inr rfl) hnone⟩
  | refused => exact .inl ⟨rfl, ends_finish _ (.inr rfl) hnone⟩
  | unlisted hthere hfault hsystem =>
    obtain ⟨cause, p, rfl⟩ := Discovery.inputs_refused hd f.query hthere _ hfault
    cases hsystem
  | stopped _ hextract =>
    obtain ⟨hreports, _⟩ := extracted_reports hextract
    exact .inl ⟨rfl, ends_finish _ (.inr rfl) hreports.running_before⟩
  | completed _ hextract =>
    obtain ⟨hreports, _⟩ := extracted_reports hextract
    exact .inl ⟨rfl, ends_finish _ (.inl rfl) hreports.running_before⟩

/-- A run ends with its last counters in a final state, no state before it final, and one line
behind them, whatever becomes of its inputs. A fault of one of them makes that state an error and is
told in the line. Only of a source that is too long to be looked up there is no message at all. -/
theorem run_ends_unless_source_refused (sources : List Source) (clock : Clock) {d : Disk}
    (hd : d.ZeroFree) (f : Form) :
    let source := Path.ofString f.source
    let ended := run sources clock d f
    (d.stat source ≠ .error (.refused .nameTooLong source) → ended.2 = none ∧ Ends ended.1) ∧
    (∀ fault, (course sources f.options d (listed d f)).fault = some fault →
      ended.1.stats.status = .error ∧ ∃ front, ended.1.messages =
        front ++ [.stats ended.1.stats, .log (stopLine ended.1.stats fault)]) ∧
    (d.stat source = .error (.refused .nameTooLong source) →
      ended.2 = some (.disk (.refused .nameTooLong source)) ∧ ended.1.messages = [] ∧
      ended.1.disk = d) := by
  intro source ended
  have hgoes : Goes sources clock d f ended := run_goes sources clock d f
  refine ⟨fun hasked => ?_, fun fault hfault => ?_, fun hrefused => ?_⟩
  · rcases hgoes.ends hd with hends | ⟨e, hthere, _⟩
    · exact hends
    · obtain ⟨hstat, rfl⟩ := Disk.exists_eq_error_iff.mp hthere
      exact absurd hstat hasked
  · obtain ⟨after, hafter, _⟩ := hgoes.of_fault hfault
    rw [hafter]
    exact ⟨rfl, after.messages, finish_messages _ _ _⟩
  · have hthere : d.exists? source = .error (.refused .nameTooLong source) :=
      Disk.exists_eq_error_iff.mpr ⟨hrefused, rfl⟩
    have hended : ended = (begun clock d, some (.disk (.refused .nameTooLong source))) := by
      simp only [ended, run, source, hthere, begun]
    rw [hended]
    exact ⟨rfl, rfl, rfl⟩

/-- A run that a fault stops ends in an error. If the source is a link to a long name there is no
report of it. -/
theorem long_link_unreported :
    let d := nestedDisk "x.cs"
    let burning := run [burningSource] ⟨3, 5⟩ d ⟨"in", "out", true, false⟩
    let long := linkTo (String.ofList (List.replicate 300 'a'))
    burning.2 = none ∧ Ends burning.1 ∧ burning.1.stats.status = .error ∧
    (run [burningSource] ⟨3, 5⟩ long ⟨"x.pdb", "out", true, false⟩).2 =
      some (.disk (.refused .nameTooLong ⟨.relative, ["x.pdb"]⟩)) ∧
    (run [burningSource] ⟨3, 5⟩ long ⟨"x.pdb", "out", true, false⟩).1.messages = [] := by
  intro d burning long
  have hd : d.ZeroFree := by decide +kernel
  have hasked : d.stat (Path.ofString "in") = .ok (["in", "w"], .directory) := by decide +kernel
  have hfault : (course [burningSource] ⟨Path.ofString "out", false⟩ d
      (listed d ⟨"in", "out", true, false⟩)).fault = some (.other "disk on fire") := by
    decide +kernel
  obtain ⟨hends, hstopped, _⟩ :=
    run_ends_unless_source_refused [burningSource] ⟨3, 5⟩ hd ⟨"in", "out", true, false⟩
  obtain ⟨hdone, hfinal⟩ := hends (by rw [hasked]; simp)
  have hsource : Path.ofString "x.pdb" = ⟨.relative, ["x.pdb"]⟩ := by decide +kernel
  have hlong : long.ZeroFree := by decide +kernel
  obtain ⟨_, _, hrefused⟩ :=
    run_ends_unless_source_refused [burningSource] ⟨3, 5⟩ hlong ⟨"x.pdb", "out", true, false⟩
  simp only [hsource] at hrefused
  obtain ⟨hraised, hsilent, _⟩ := hrefused linkTo_long_unexaminable.refused
  exact ⟨hdone, hfinal, (hstopped _ hfault).1, hraised, hsilent⟩

end Deck
end SourceRecovery
