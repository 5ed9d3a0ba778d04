import Mathlib.Data.List.Nodup
import Mathlib.Data.Set.Function
import RightLinear.NFA.Determinize

namespace RightLinear

theorem toList_braced {labels : List String} (h : labels ≠ []) :
    (braced labels).toList = '{' :: ([','].intercalate (labels.map String.toList) ++ ['}']) := by
  simp [braced, h, String.toList_intercalate]

-- Labels without commas can be read back from their braces.
theorem braced_inj {l₁ l₂ : List String} (h₁ : l₁ ≠ []) (h₂ : l₂ ≠ [])
    (hc₁ : ∀ s ∈ l₁, ',' ∉ s.toList) (hc₂ : ∀ s ∈ l₂, ',' ∉ s.toList) (h : braced l₁ = braced l₂) :
    l₁ = l₂ := by
  have pieces {l : List String} (h : l ≠ []) (hc : ∀ s ∈ l, ',' ∉ s.toList) :
      ([','].intercalate (l.map String.toList)).splitOn ',' = l.map String.toList :=
    List.splitOn_intercalate ',' (by simpa using hc) (by simpa using h)
  have he :
      [','].intercalate (l₁.map String.toList) = [','].intercalate (l₂.map String.toList) := by
    simpa [toList_braced h₁, toList_braced h₂] using congrArg String.toList h
  have hm : l₁.map String.toList = l₂.map String.toList := by
    rw [← pieces h₁ hc₁, he, pieces h₂ hc₂]
  exact List.map_injective_iff.mpr (fun _ _ => String.toList_injective) hm

namespace NFA

variable {first S T : Labels} {rest sets : List Labels} {named : List (Labels × String)}
  {taken : List String} {p : Labels × String}

theorem map_fst_nameSets : (nameSets taken sets).map (·.1) = sets := by
  induction sets generalizing taken
  case nil            => rfl
  case cons S sets hi => simp [nameSets, hi]

theorem mk_nameOf_mem (h : S ∈ named.map (·.1)) : (S, nameOf named S) ∈ named := by
  have ⟨p, hp, hs⟩ := List.mem_map.mp h
  rw [nameOf]
  cases hf : named.find? (·.1 = S)
  case none   => simpa [hs] using List.find?_eq_none.mp hf p hp
  case some q =>
    have hq : q.1 = S := by simpa using List.find?_some hf
    simpa [← hq] using List.mem_of_find?_eq_some hf

theorem nameOf_eq (hn : (named.map (·.1)).Nodup) (h : p ∈ named) : nameOf named p.1 = p.2 := by
  have hm := mk_nameOf_mem (List.mem_map_of_mem (f := (·.1)) h)
  exact congrArg Prod.snd (List.inj_on_of_nodup_map hn hm h rfl)

theorem nameSets_eq_map (hn : sets.Nodup) : nameSets [] sets =
    sets.map fun S => (S, nameOf (nameSets [] sets) S) := by
  have hk : ((nameSets [] sets).map (·.1)).Nodup := by rwa [map_fst_nameSets]
  calc
    nameSets [] sets
    _ = (nameSets [] sets).map fun p => (p.1, nameOf (nameSets [] sets) p.1) :=
      (List.map_id _).symm.trans <| List.map_congr_left fun p hp => by simp [nameOf_eq hk hp]
    _ = ((nameSets [] sets).map (·.1)).map fun S => (S, nameOf (nameSets [] sets) S) := by simp
    _ = sets.map fun S => (S, nameOf (nameSets [] sets) S) := by rw [map_fst_nameSets]

-- A set, other than the first, whose labels written together are those of another set as well. Only
-- such a set can get a braced name.
def Clashes (first : Labels) (rest : List Labels) (S : Labels) : Prop :=
  S ∈ rest ∧ ∃ T ∈ first :: rest, T ≠ S ∧ String.join T.toList = String.join S.toList

structure Separated (first : Labels) (rest : List Labels) : Prop where
  nodup      : (first :: rest).Nodup
  braced_ne  : ∀ S, Clashes first rest S → ∀ T ∈ first :: rest,
    braced S.toList ≠ String.join T.toList
  braced_inj : ∀ S T, Clashes first rest S → Clashes first rest T →
    braced S.toList = braced T.toList → S = T

-- Names that were given so far, to the first set and to some of the rest.
structure Naming (first : Labels) (rest : List Labels) (named : List (Labels × String)) : Prop where
  mem    : ∀ p ∈ named, p.1 ∈ first :: rest
  proper : ∀ p ∈ named, p.2 = String.join p.1.toList ∨
    Clashes first rest p.1 ∧ p.2 = braced p.1.toList
  inj    : ∀ p ∈ named, ∀ q ∈ named, p.2 = q.2 → p.1 = q.1

namespace Naming

-- A name that is taken was not given as a braced name, so the set clashes with the one it was given
-- to.
theorem clashes (hs : Separated first rest) (hn : Naming first rest named) (hS : S ∈ rest)
    (hf : ∀ p ∈ named, p.1 ≠ S) (ht : String.join S.toList ∈ named.map (·.2)) :
    Clashes first rest S := by
  have ⟨p, hp, he⟩ := List.mem_map.mp ht
  rcases hn.proper p hp with h | ⟨hc, h⟩
  · exact ⟨hS, p.1, hn.mem p hp, hf p hp, h.symm.trans he⟩
  · exact absurd (h.symm.trans he) (hs.braced_ne _ hc S (.tail _ hS))

theorem cons (hn : Naming first rest named) (hS : S ∈ first :: rest) {name : String}
    (hp : name = String.join S.toList ∨ Clashes first rest S ∧ name = braced S.toList)
    (hf : ∀ p ∈ named, p.2 ≠ name) : Naming first rest ((S, name) :: named) where
  mem    := List.forall_mem_cons.mpr ⟨hS, hn.mem⟩
  proper := List.forall_mem_cons.mpr ⟨hp, hn.proper⟩
  inj    := by
    intro p hp q hq he
    rcases List.mem_cons.mp hp with rfl | hp <;> rcases List.mem_cons.mp hq with rfl | hq
    · rfl
    · exact absurd he.symm (hf q hq)
    · exact absurd he (hf p hp)
    · exact hn.inj p hp q hq he

theorem step (hs : Separated first rest) (hn : Naming first rest named) (hS : S ∈ rest)
    (hf : ∀ p ∈ named, p.1 ≠ S) : Naming first rest
      ((S, if String.join S.toList ∈ named.map (·.2) then braced S.toList
        else String.join S.toList) :: named) := by
  split
  case isTrue ht =>
    have hc := hn.clashes hs hS hf ht
    refine hn.cons (.tail _ hS) (.inr ⟨hc, rfl⟩) fun p hp he => ?_
    rcases hn.proper p hp with h | ⟨hp', h⟩
    · exact hs.braced_ne _ hc _ (hn.mem p hp) (he.symm.trans h)
    · exact hf p hp (hs.braced_inj _ _ hp' hc (h.symm.trans he))
  case isFalse ht =>
    exact hn.cons (.tail _ hS) (.inl rfl) fun p hp he => ht (List.mem_map.mpr ⟨p, hp, he⟩)

theorem mono {named' : List (Labels × String)} (hn : Naming first rest named)
    (h : ∀ p ∈ named', p ∈ named) : Naming first rest named' where
  mem p hp       := hn.mem p (h p hp)
  proper p hp    := hn.proper p (h p hp)
  inj p hp q hq  := hn.inj p (h p hp) q (h q hq)

-- The induction is on the sets that have no name yet.
theorem nameSets {sets : List Labels} (hs : Separated first rest) (hn : Naming first rest named)
    (ht : ∀ s, s ∈ taken ↔ s ∈ named.map (·.2)) (hr : ∀ S ∈ sets, S ∈ rest)
    (hd : sets.Nodup) (hf : ∀ S ∈ sets, ∀ p ∈ named, p.1 ≠ S) :
    Naming first rest (NFA.nameSets taken sets ++ named) := by
  induction sets generalizing taken named
  case nil => exact hn
  case cons S sets hi =>
    have ⟨hS, hd⟩ := List.nodup_cons.mp hd
    have hstep := hn.step hs (hr S (.head _)) (hf S (.head _))
    simp only [← ht] at hstep
    have ht' {name s : String} : s ∈ name :: taken ↔ s ∈ ((S, name) :: named).map (·.2) := by
      simp only [List.map_cons, List.mem_cons, ht]
    have hf' {name : String} : ∀ T ∈ sets, ∀ p ∈ (S, name) :: named, p.1 ≠ T := by
      intro T hT
      exact List.forall_mem_cons.mpr ⟨fun (he : S = T) => hS (he ▸ hT), hf T (.tail _ hT)⟩
    apply (hi hstep (fun _ => ht') (fun T hT => hr T (.tail _ hT)) hd hf').mono
    intro p hp
    simp only [NFA.nameSets, List.cons_append, List.mem_append, List.mem_cons] at hp ⊢
    rcases hp with hp | hp | hp
    · exact .inr (.inl hp)
    · exact .inl hp
    · exact .inr (.inr hp)

end Naming

theorem Separated.naming (hs : Separated first rest) :
    Naming first rest (nameSets [] (first :: rest)) := by
  have hfirst : Naming first rest [(first, String.join first.toList)] := {
    mem    := by simp
    proper := by simp
    inj    := by simp }
  have ⟨hf, hd⟩ := List.nodup_cons.mp hs.nodup
  have ht (s : String) : s ∈ [String.join first.toList] ↔
      s ∈ [(first, String.join first.toList)].map (·.2) := Iff.rfl
  have hf' : ∀ S ∈ rest, ∀ p ∈ [(first, String.join first.toList)], p.1 ≠ S := by
    simpa using fun S hS (he : first = S) => hf (he ▸ hS)
  apply (hfirst.nameSets hs ht (fun _ => id) hd hf').mono
  simp [nameSets, or_comm]

-- The braced name is not looked up, so something else has to keep the names apart.
theorem nameOf_injOn (hs : Separated first rest) :
    Set.InjOn (nameOf (nameSets [] (first :: rest))) {S | S ∈ first :: rest} := by
  intro S hS T hT he
  have mem {U : Labels} (hU : U ∈ first :: rest) :
      (U, nameOf (nameSets [] (first :: rest)) U) ∈ nameSets [] (first :: rest) :=
    mk_nameOf_mem (by rwa [map_fst_nameSets])
  exact hs.naming.inj _ (mem hS) _ (mem hT) he

end NFA
end RightLinear
