import SourceRecovery.Proofs.LinkFreeWrites
import SourceRecovery.Proofs.TreeRuns

/-! Runs of requests on a disk without links. Of each step it is known which file it puts where and
what it answers, so of a run it is known what it leaves, and all its answers can be told from that.
-/
namespace SourceRecovery

namespace Disk

variable {d d' : Disk}

theorem LinkFree.tree (hd : d.LinkFree) : Tree.LinkFree d.entry? := ⟨rfl, hd.no_link⟩

theorem LinkFree.of_tree (hd : d.LinkFree) (h : Tree.LinkFree d'.entry?)
    (hworking : d'.workingDirectory = d.workingDirectory) : d'.LinkFree :=
  ⟨hworking ▸ hd.base, h.no_link⟩

end Disk

namespace Output

variable {base path : Path} {options : Options} {name text : String}

theorem placement_path :
    (placement base options name text).path = some path ↔
      resolve base options name = .ok path := by
  unfold placement
  cases resolve base options name <;> simp [Except.toOption]

end Output

/-- A step that puts a file where it is wanted and whose answer depends on whether that could be
done. Of the answer nothing is told but what `view` keeps. -/
structure Puts {α β γ : Type} (act : Disk → α → Disk × β) (wanted : Path → α → Placement)
    (view : β → γ) (foreseen : Path → α → Bool → γ) : Prop where
  tree : ∀ {d : Disk}, d.LinkFree → ∀ a,
    Disk.entry? (act d a).1 = Tree.put d.entry? (wanted d.workingDirectory a)
  workingDirectory : ∀ {d : Disk}, d.LinkFree → ∀ a,
    (act d a).1.workingDirectory = d.workingDirectory
  answered : ∀ {d : Disk}, d.LinkFree → ∀ a, view (act d a).2 =
    foreseen d.workingDirectory a
      (decide (Tree.Takes d.entry? (wanted d.workingDirectory a)))

namespace Puts

variable {α β γ : Type} {act : Disk → α → Disk × β} {wanted : Path → α → Placement}
variable {view : β → γ} {foreseen : Path → α → Bool → γ} {d : Disk}

theorem linkFree (h : Puts act wanted view foreseen) (hd : d.LinkFree) (a : α) :
    (act d a).1.LinkFree := by
  apply hd.of_tree _ (h.workingDirectory hd a)
  rw [h.tree hd]
  exact Tree.put_linkFree hd.tree _

/-- A run puts all the files, and whether one was let in when its turn came can be told from the
tree that is left. -/
theorem run (h : Puts act wanted view foreseen) (hd : d.LinkFree) (as : List α) :
    let base := d.workingDirectory
    let after := (feed act d as).1
    after.entry? = Tree.putAll d.entry? (as.map (wanted base)) ∧
    after.workingDirectory = base ∧ after.LinkFree ∧
    (feed act d as).2.map view = as.map fun a =>
      foreseen base a (decide (Tree.Takes after.entry? (wanted base a))) := by
  induction as generalizing d with
  | nil => exact ⟨rfl, rfl, hd, rfl⟩
  | cons a rest ih =>
    obtain ⟨hentries, hbase, hlinkFree, hanswers⟩ := ih (h.linkFree hd a)
    rw [h.workingDirectory hd a] at hentries hbase hanswers
    rw [h.tree hd a] at hentries
    simp only [feed]
    refine ⟨hentries, hbase, hlinkFree, ?_⟩
    have htaken := (Tree.putAll_settled hd.tree [] (wanted d.workingDirectory a)
      (rest.map (wanted d.workingDirectory))).2
    rw [List.map_cons, List.map_cons, hanswers, h.answered hd a]
    congr 2
    apply decide_eq_decide.mpr
    rw [hentries]
    exact htaken.symm

theorem run_again (h : Puts act wanted view foreseen) (hd : d.LinkFree) (as : List α) :
    let first := feed act d as
    let second := feed act first.1 as
    Disk.entry? second.1 = Disk.entry? first.1 ∧
    second.1.workingDirectory = first.1.workingDirectory ∧
    second.2.map view = first.2.map view := by
  intro first second
  obtain ⟨hentries, hbase, hlinkFree, hanswers⟩ := h.run hd as
  obtain ⟨hentries', hbase', _, hanswers'⟩ := h.run hlinkFree as
  rw [hbase] at hentries' hbase' hanswers'
  have hsame : Disk.entry? second.1 = Disk.entry? first.1 := by
    rw [hentries', hentries, Tree.putAll_putAll hd.tree]
  refine ⟨hsame, hbase'.trans hbase.symm, ?_⟩
  rw [hanswers', hanswers]
  apply List.map_congr_left
  intro a _
  congr 1
  apply decide_eq_decide.mpr
  rw [hsame]

end Puts
end SourceRecovery
