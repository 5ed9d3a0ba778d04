import Mathlib.Order.Bounds.Basic
import RightLinear.Proofs.NFA.Trail
import RightLinear.Proofs.Search.AnyOrder

namespace RightLinear.NFA

variable {n : NFA} {ls targets : Labels} {seeds : List String} {S : Set String} {s t a : String}

-- No ε-move leaves the set.
def SilentlyClosed (n : NFA) (S : Set String) : Prop :=
  ∀ s ∈ S, ∀ t ∈ n.targets s epsilon, t ∈ S

theorem SilentlyClosed.mem (hS : n.SilentlyClosed S) (h : n.Silent s t) (hs : s ∈ S) : t ∈ S := by
  induction h
  case refl      => exact hs
  case tail h hi => exact hS _ hi _ h

theorem silentlyClosed_closure : n.SilentlyClosed {t | t ∈ n.closure ls} := by
  intro s hs t ht
  have ⟨r, hr, h⟩ := mem_closure_iff.mp hs
  exact mem_closure_iff.mpr ⟨r, hr, h.tail ht⟩

theorem isLeast_closure :
    IsLeast {S : Set String | (∀ s ∈ ls, s ∈ S) ∧ n.SilentlyClosed S} {t | t ∈ n.closure ls} := by
  refine ⟨⟨fun s hs => mem_closure_iff.mpr ⟨s, hs, .refl⟩, silentlyClosed_closure⟩, ?least⟩
  case least =>
    intro S ⟨hls, hS⟩ t ht
    have ⟨s, hs, h⟩ := mem_closure_iff.mp ht
    exact hS.mem h (hls s hs)

-- The search as it is made, from the labels in any order.
theorem ends_with_closure (hs : seeds.Perm ls.toList) :
    Search.EndsWith (fun s => (n.targets s epsilon).toList) ⟨seeds, seeds⟩
      (n.closure ls).toList := by
  apply Search.ends_with (hs.nodup_iff.mpr ls.nodup_toList) (SortedSet.nodup_toList _)
  intro t
  simp only [SortedSet.mem_toList, mem_closure_iff, hs.mem_iff]
  rfl

theorem move_eq_closure (h : ∀ t, t ∈ targets ↔ ∃ s ∈ ls, t ∈ n.targets s a) :
    n.move ls a = n.closure targets := by
  ext t
  simp only [mem_move_iff, mem_closure_iff, h]
  constructor
  case mp  =>
    intro ⟨s, hs, r, hr, ht⟩
    exact ⟨r, ⟨s, hs, hr⟩, ht⟩
  case mpr =>
    intro ⟨r, ⟨s, hs, hr⟩, ht⟩
    exact ⟨s, hs, r, hr, ht⟩

theorem closure_least (n : NFA) (ls : Labels) :
    IsLeast {S : Set String | (∀ s ∈ ls, s ∈ S) ∧ n.SilentlyClosed S} {t | t ∈ n.closure ls} ∧
    (∀ t, t ∈ n.closure ls ↔ ∃ s ∈ ls, n.Silent s t) ∧
    (∀ seeds : List String, seeds.Perm ls.toList →
      Search.EndsWith (fun s => (n.targets s epsilon).toList) ⟨seeds, seeds⟩
        (n.closure ls).toList) ∧
    ∀ a (targets : Labels), (∀ t, t ∈ targets ↔ ∃ s ∈ ls, t ∈ n.targets s a) →
      n.move ls a = n.closure targets :=
  ⟨isLeast_closure, fun _ => mem_closure_iff, fun _ => ends_with_closure,
    fun _ _ => move_eq_closure⟩

-- Both cycles are gone round, and a label that is no state is found as well.
theorem closure_least_circling :
    (∀ k q, Search.Run (fun s => (circling.targets s epsilon).toList) k
      ⟨["S", "gone", "B"], ["S", "gone", "B"]⟩ q → q.waiting = [] →
        k = 5 ∧ q.found.Perm ["A", "B", "C", "S", "gone"]) ∧
    circling.move (.ofList ["A", "C"]) "a" = circling.closure (.singleton "B") := by
  have ⟨_, _, he, _⟩ := closure_least circling (.ofList ["B", "S", "gone"])
  have ⟨_, _, _, hm⟩ := closure_least circling (.ofList ["A", "C"])
  have hp : ["S", "gone", "B"].Perm (SortedSet.ofList ["B", "S", "gone"]).toList := by
    decide +kernel
  have hc : (circling.closure (.ofList ["B", "S", "gone"])).toList =
      ["A", "B", "C", "S", "gone"] := by decide +kernel
  have hA : circling.targets "A" "a" = .singleton "B" := by decide +kernel
  have hC : circling.targets "C" "a" = ∅ := by decide +kernel
  refine ⟨fun k q r hw => ?found, hm "a" _ fun t => ?targets⟩
  case found   => simpa [hc] using (he _ hp).found k q r hw
  case targets => simp [hA, hC]

end RightLinear.NFA
