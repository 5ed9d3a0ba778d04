import RightLinear.Proofs.DFA.Readable
import RightLinear.Proofs.DFA.Substitution
import RightLinear.Proofs.Key

namespace RightLinear.DFA

variable {d : DFA String} {f g : String → String} {s : String}

-- What a relabelling does is up to the new labels of states.
theorem relabelled_congr (hv : d.Valid) (hr : d.NoStrayRow) (h : ∀ s ∈ d.states, f s = g s) :
    d.relabelled f = d.relabelled g := by
  have image {ls : Labels} (hl : ∀ s ∈ ls, s ∈ d.states) : ls.image f = ls.image g :=
    congrArg SortedSet.ofList (List.map_congr_left fun s hs => h s (hl s hs))
  have start : d.start.map f = d.start.map g :=
    Option.map_congr fun s hs => h s (hv.start_mem s hs)
  have rows : relabelRows f d.transitions = relabelRows g d.transitions := by
    refine List.foldl_ext _ _ _ fun t e he => ?_
    have hs : f e.1 = g e.1 := h e.1 (hr e.1 (List.mem_map_of_mem he))
    have ht : (e.2.map fun _ => f) = e.2.map fun _ => g := by
      ext a : 1
      rw [Table.find?_map, Table.find?_map]
      refine Option.map_congr fun t ht => ?_
      have hn : d.next e.1 a = some t :=
        next_eq_some_iff.mpr ⟨e.2, Table.find?_eq_some_iff.mpr he, ht⟩
      exact h t (hv.target_mem hn)
    rw [hs, ht]
  simp only [relabelled, image fun _ hs => hs, image hv.accepting_mem, start, rows]

-- Labels that keep the states apart, and all but the start state in order.
structure Ordered (d : DFA String) (f : String → String) : Prop extends Relabelling d f where
  increasing : ∀ s ∈ d.others, ∀ t ∈ d.others, s < t → f s < f t

namespace Ordered

variable (ho : Ordered d f)
include ho

theorem mem_others_relabelled {t : String} :
    t ∈ (d.relabelled f).others ↔ ∃ s ∈ d.others, f s = t := by
  have hstart : (d.relabelled f).start = d.start.map f := rfl
  simp only [mem_others_iff, hstart]
  constructor
  case mp  =>
    intro ⟨ht, hn⟩
    have ⟨s, hs, he⟩ := SortedSet.mem_image.mp ht
    exact ⟨s, ⟨hs, fun hd => hn (by simp [hd, he])⟩, he⟩
  case mpr =>
    intro ⟨s, ⟨hs, hn⟩, he⟩
    refine ⟨SortedSet.mem_image.mpr ⟨s, hs, he⟩, fun hd => hn ?_⟩
    have ⟨q, hq, hqt⟩ := Option.map_eq_some_iff.mp hd
    rw [hq, ho.injOn (ho.valid.start_mem q hq) hs (hqt.trans he.symm)]

-- Both lists are increasing, so it is enough that they have the same members.
theorem others_relabelled : (d.relabelled f).others = d.others.map f := by
  have sorted (d : DFA String) : d.others.Pairwise (· < ·) := d.states.sorted.filter _
  have hm : (d.others.map f).Pairwise (· < ·) :=
    List.pairwise_map.mpr <| (sorted d).imp_of_mem fun hs ht => ho.increasing _ hs _ ht
  let new : Labels := ⟨_, sorted (d.relabelled f)⟩
  let old : Labels := ⟨_, hm⟩
  have he : new = old := by
    ext t
    exact ho.mem_others_relabelled.trans List.mem_map.symm
  exact congrArg SortedSet.toList he

-- A state keeps its place among the others.
theorem readableLabel_relabelled (hs : s ∈ d.states) :
    (d.relabelled f).readableLabel (f s) = d.readableLabel s := by
  by_cases hd : d.start = some s
  case pos =>
    have hs' : f s ∈ (d.relabelled f).states := SortedSet.mem_image.mpr ⟨s, hs, rfl⟩
    have hd' : (d.relabelled f).start = some (f s) := by simp [relabelled, hd]
    exact (readableLabel_start hs' hd').trans (readableLabel_start hs hd).symm
  case neg =>
    obtain ⟨k, hk⟩ := List.mem_iff_getElem?.mp (mem_others_iff.mpr ⟨hs, hd⟩)
    have hk' : (d.relabelled f).others[k]? = some (f s) := by simp [ho.others_relabelled, hk]
    exact (readableLabel_other hk').trans (readableLabel_other hk).symm

theorem run_relabelReadable :
    InPlace.relabelReadable.run (d.relabelled f) = .ok () (d.relabelled d.readableLabel) := by
  have hv : (d.relabelled f).Valid := ho.valid.relabelled f
  have hr : (d.relabelled f).NoStrayRow := ho.rows.relabelled f
  have he : (d.relabelled f).relabelled (d.relabelled f).readableLabel = d.relabelled _ :=
    ho.relabelled_relabelled (hv.relabelling_readableLabel hr)
  have hc : d.relabelled ((d.relabelled f).readableLabel ∘ f) = d.relabelled d.readableLabel :=
    relabelled_congr ho.valid ho.rows fun _ hs => ho.readableLabel_relabelled hs
  exact (hv.run_relabelReadable hr).trans (by rw [he, hc])

end Ordered

-- After the letters come labels that are between letters.
theorem readable_lt : ∀ k < 25, ∀ j < k, readable startLabel j < readable startLabel k := by
  decide +kernel

theorem Valid.ordered_readableLabel (hv : d.Valid) (hr : d.NoStrayRow)
    (hl : d.others.length ≤ 25) : Ordered d d.readableLabel := by
  refine ⟨hv.relabelling_readableLabel hr, fun s hs t ht hlt => ?_⟩
  have ⟨j, hj⟩ := List.mem_iff_getElem?.mp hs
  have ⟨k, hk⟩ := List.mem_iff_getElem?.mp ht
  have hjk : j < k := Key.index_lt (d.states.sorted.filter _) hj hk hlt
  have hkl : k < d.others.length := (List.getElem?_eq_some_iff.mp hk).choose
  simpa [readableLabel_other hj, readableLabel_other hk] using
    readable_lt k (Nat.lt_of_lt_of_le hkl hl) j hjk

theorem relabelReadable_of_order (hv : d.Valid) (hr : d.NoStrayRow) :
    ∃ e, InPlace.relabelReadable.run d = .ok () e ∧
      (∀ map, Set.InjOn (newLabel map) {s | s ∈ d.states} →
        (∀ s ∈ d.others, ∀ t ∈ d.others, s < t → newLabel map s < newLabel map t) →
        ∃ c, (InPlace.relabelWith map).run d = .ok () c ∧
          InPlace.relabelReadable.run c = .ok () e) ∧
      (d.others.length ≤ 25 → InPlace.relabelReadable.run e = .ok () e) := by
  refine ⟨_, hv.run_relabelReadable hr, fun map hi hm => ?renamed, fun hl => ?again⟩
  case renamed =>
    have ho : Ordered d (newLabel map) := ⟨⟨hv, hr, hi⟩, hm⟩
    exact ⟨_, run_relabelWith hv hr, ho.run_relabelReadable⟩
  case again => exact (hv.ordered_readableLabel hr hl).run_relabelReadable

-- The start state comes last, and another state gets its readable label.
def shuffle : Table String String :=
  .ofList [("A", "S"), ("S", "SA"), ("T", "Z"), ("B", "ZZ")]

theorem relabelReadable_of_order_crossed : crossed.Valid ∧ crossed.NoStrayRow ∧
    ∃ e c, InPlace.relabelReadable.run crossed = .ok () e ∧
      (InPlace.relabelWith shuffle).run crossed = .ok () c ∧ c.start = some "ZZ" ∧
      InPlace.relabelReadable.run c = .ok () e ∧ InPlace.relabelReadable.run e = .ok () e := by
  have hv : crossed.Valid := by decide +kernel
  have hr : crossed.NoStrayRow := by decide +kernel
  have hi : ∀ s ∈ crossed.states.toList, ∀ t ∈ crossed.states.toList,
      newLabel shuffle s = newLabel shuffle t → s = t := by decide +kernel
  have ⟨e, he, hm, hl⟩ := relabelReadable_of_order hv hr
  have ⟨c, hc, hce⟩ := hm shuffle (fun s hs t ht => hi s hs t ht) (by decide +kernel)
  have hs : c.start = some "ZZ" := by
    cases hc.symm.trans (run_relabelWith hv hr)
    decide +kernel
  exact ⟨hv, hr, e, c, he, hc, hs, hce, hl (by decide +kernel)⟩

end RightLinear.DFA
