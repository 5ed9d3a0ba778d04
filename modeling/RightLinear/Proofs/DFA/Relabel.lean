import RightLinear.DFA.Relabel
import RightLinear.Proofs.DFA.Run
import RightLinear.Proofs.Label
import RightLinear.Proofs.Table

namespace RightLinear.DFA

theorem find?_overlay {τ : Type} {row₁ row₂ : Table String τ} {a : String} :
    (overlay row₁ row₂).find? a = (row₂.find? a).or (row₁.find? a) :=
  Table.find?_foldl_insert row₂.nodup_keys

theorem overlay_empty {τ : Type} {row : Table String τ} : overlay ∅ row = row := by
  ext a : 1
  rw [find?_overlay, Table.find?_empty, Option.or_none]

variable {τ : Type} [Key τ] {d : DFA String} {f : String → τ} {s q a : String} {w : List String}
  {row : Table String String} {es : List (String × Table String String)}
  {t : Table τ (Table String τ)} {k : τ}

def putRow (f : String → τ) (t : Table τ (Table String τ)) (e : String × Table String String) :
    Table τ (Table String τ) :=
  t.insert (f e.1) (overlay ((t.find? (f e.1)).getD ∅) (e.2.map fun _ => f))

theorem find?_putRow {e : String × Table String String} :
    (((putRow f t e).find? k).getD ∅).find? a =
      if f e.1 = k then ((e.2.find? a).map f).or (((t.find? k).getD ∅).find? a)
      else ((t.find? k).getD ∅).find? a := by
  rw [putRow, Table.find?_insert]
  by_cases h : f e.1 = k
  case neg => rw [if_neg (Ne.symm h), if_neg h]
  case pos => rw [if_pos h.symm, if_pos h, Option.getD_some, find?_overlay, Table.find?_map, h]

theorem find?_foldl_putRow_of_not_mem (h : ∀ e ∈ es, f e.1 ≠ k) :
    (es.foldl (putRow f) t).find? k = t.find? k := by
  induction es generalizing t
  case nil => rfl
  case cons e es hi =>
    have ⟨he, h⟩ := List.forall_mem_cons.mp h
    rw [List.foldl_cons, hi h, putRow, Table.find?_insert, if_neg he.symm]

-- No row is put over another.
theorem find?_foldl_putRow_of_mem (hn : (es.map (f ·.1)).Nodup) (h : (s, row) ∈ es)
    (ht : t.find? (f s) = none) :
    (es.foldl (putRow f) t).find? (f s) = some (row.map fun _ => f) := by
  induction es generalizing t
  case nil => cases h
  case cons e es hi =>
    have ⟨he, hn⟩ := List.nodup_cons.mp hn
    rw [List.foldl_cons]
    rcases List.mem_cons.mp h with rfl | h
    · have hes : ∀ e ∈ es, f e.1 ≠ f s := fun e hm heq => he (List.mem_map.mpr ⟨e, hm, heq⟩)
      rw [find?_foldl_putRow_of_not_mem hes, putRow, ht, Option.getD_none, overlay_empty,
        Table.find?_insert, if_pos rfl]
    · have hne : f s ≠ f e.1 := fun heq => he (List.mem_map.mpr ⟨(s, row), h, heq⟩)
      exact hi hn h (by rw [putRow, Table.find?_insert, if_neg hne, ht])

-- Where a transition under the new labels comes from, even when rows are put over one another.
theorem exists_of_find?_foldl_putRow {u : τ}
    (h : (((es.foldl (putRow f) t).find? k).getD ∅).find? a = some u) :
    (∃ e ∈ es, f e.1 = k ∧ ∃ q, e.2.find? a = some q ∧ f q = u) ∨
      ((t.find? k).getD ∅).find? a = some u := by
  induction es generalizing t
  case nil => exact .inr h
  case cons e es hi =>
    rcases hi h with ⟨e', he, h⟩ | h
    · exact .inl ⟨e', .tail _ he, h⟩
    · rw [find?_putRow] at h
      split at h
      case isFalse   => exact .inr h
      case isTrue hk =>
        rcases Option.or_eq_some_iff.mp h with h | ⟨_, h⟩
        · exact .inl ⟨e, .head _, hk, Option.map_eq_some_iff.mp h⟩
        · exact .inr h

-- What `relabel` makes of a DFA whose rows are those of states.
def relabelled (d : DFA String) (f : String → τ) : DFA τ where
  states      := d.states.image f
  alphabet    := d.alphabet
  start       := d.start.map f
  accepting   := d.accepting.image f
  transitions := relabelRows f d.transitions

theorem relabel_eq_ok_iff {e : DFA τ} :
    d.relabel f = .ok e ↔ d.NoStrayRow ∧ d.relabelled f = e := by
  have hn : d.transitions.keys.find? (· ∉ d.states) = none ↔ d.NoStrayRow := by
    simp [List.find?_eq_none, NoStrayRow]
  rw [← hn, relabel]
  cases d.transitions.keys.find? (· ∉ d.states)
  case none   => simp [relabelled]
  case some s => simp

theorem mem_keys_relabelled :
    k ∈ (d.relabelled f).transitions.keys ↔ ∃ s ∈ d.transitions.keys, f s = k := by
  have h : k ∈ (d.relabelled f).transitions.keys ↔ ∃ e ∈ d.transitions.entries, f e.1 = k :=
    Table.mem_keys_foldl_insert.trans (or_iff_left Table.not_mem_keys_empty)
  simpa only [Table.keys, List.mem_map, exists_exists_and_eq_and] using h

theorem NoStrayRow.relabelled (hr : d.NoStrayRow) (f : String → τ) :
    (d.relabelled f).NoStrayRow := by
  intro k hk
  have ⟨s, hs, he⟩ := mem_keys_relabelled.mp hk
  exact SortedSet.mem_image.mpr ⟨s, hr s hs, he⟩

theorem exists_of_next_relabelled {u : τ} (h : (d.relabelled f).next k a = some u) :
    ∃ s t, d.next s a = some t ∧ f s = k ∧ f t = u := by
  rcases exists_of_find?_foldl_putRow h with ⟨⟨s, row⟩, he, hs, t, ht, hu⟩ | h
  · exact ⟨s, t, next_eq_some_iff.mpr ⟨row, Table.find?_eq_some_iff.mpr he, ht⟩, hs, hu⟩
  · simp at h

-- States may become one, and rows that were stray stay so.
theorem Valid.relabelled (hv : d.Valid) (f : String → τ) : (d.relabelled f).Valid := by
  have mem {s : String} (hs : s ∈ d.states) : f s ∈ (d.relabelled f).states :=
    SortedSet.mem_image.mpr ⟨s, hs, rfl⟩
  apply of_next (d := d.relabelled f) hv.alphabet_nodup hv.epsilon_not_mem
  case hs =>
    intro k hk
    have ⟨s, hs, he⟩ := Option.map_eq_some_iff.mp hk
    exact he ▸ mem (hv.start_mem s hs)
  case ha =>
    intro k hk
    have ⟨s, hs, he⟩ := SortedSet.mem_image.mp hk
    exact he ▸ mem (hv.accepting_mem s hs)
  case ht =>
    intro k a u h
    have ⟨s, t, hn, hs, ht⟩ := exists_of_next_relabelled h
    exact ⟨hs ▸ mem (hv.source_mem hn), hv.symbol_mem hn, ht ▸ mem (hv.target_mem hn)⟩

theorem Valid.of_relabel {e : DFA τ} (hv : d.Valid) (h : d.relabel f = .ok e) : e.Valid :=
  (relabel_eq_ok_iff.mp h).right ▸ hv.relabelled f

structure Relabelling (d : DFA String) (f : String → τ) : Prop where
  valid : d.Valid
  rows  : d.NoStrayRow
  injOn : Set.InjOn f {s | s ∈ d.states}

namespace Relabelling

variable (hf : Relabelling d f)
include hf

theorem relabel_eq : d.relabel f = .ok (d.relabelled f) :=
  relabel_eq_ok_iff.mpr ⟨hf.rows, rfl⟩

omit [Key τ] in
theorem nodup_new_keys : (d.transitions.entries.map (f ·.1)).Nodup := by
  have hm := List.Nodup.map_on (f := f) (fun s hs q hq => hf.injOn (hf.rows s hs) (hf.rows q hq))
    d.transitions.nodup_keys
  rwa [Table.keys, List.map_map] at hm

-- The row of a state goes over as it is, a missing one as well as one without entries.
theorem find?_relabelled (hs : s ∈ d.states) : (d.relabelled f).transitions.find? (f s) =
    (d.transitions.find? s).map (Table.map fun _ => f) := by
  cases h : d.transitions.find? s
  case some row =>
    exact find?_foldl_putRow_of_mem hf.nodup_new_keys (Table.find?_eq_some_iff.mp h) rfl
  case none =>
    refine find?_foldl_putRow_of_not_mem fun e he heq => ?_
    have hk : e.1 ∈ d.transitions.keys := List.mem_map_of_mem he
    have ⟨row, hrow⟩ := Table.mem_keys_iff.mp (hf.injOn (hf.rows _ hk) hs heq ▸ hk)
    simp [h] at hrow

theorem next_eq (hs : s ∈ d.states) : (d.relabelled f).next (f s) a = (d.next s a).map f := by
  rw [next, row, hf.find?_relabelled hs, next, DFA.row]
  cases d.transitions.find? s
  case none     => rfl
  case some row =>
    have hm : (row.map fun _ => f).find? a = (row.find? a).map f := Table.find?_map
    exact hm

-- Labels that tell the states apart carry every run over.
theorem run_eq (hs : s ∈ d.states) :
    (d.relabelled f).run (some (f s)) w = (d.run (some s) w).map f :=
  run_map (p := (· ∈ d.states)) (fun _ _ _ _ h => hf.valid.target_mem h)
    (fun _ _ hs => hf.next_eq hs) hs

theorem run_start_eq : (d.relabelled f).run (d.relabelled f).start w = (d.run d.start w).map f := by
  rw [show (d.relabelled f).start = d.start.map f from rfl]
  cases hs : d.start
  case none   => simp
  case some s => exact hf.run_eq (hf.valid.start_mem s hs)

theorem accepts_eq : (d.relabelled f).accepts w = d.accepts w := by
  rw [accepts, accepts, hf.run_start_eq]
  cases h : d.run d.start w
  case none   => rfl
  case some t =>
    obtain ⟨s, hs⟩ : ∃ s, d.start = some s :=
      Option.ne_none_iff_exists'.mp fun hs => by simp [hs] at h
    have ht : t ∈ d.states := hf.valid.run_mem (hf.valid.start_mem s hs) (hs ▸ h)
    rw [Bool.eq_iff_iff]
    simp only [Option.map_some, decide_eq_true_iff, relabelled, SortedSet.mem_image]
    constructor
    case mpr => exact fun ha => ⟨t, ha, rfl⟩
    case mp =>
      rintro ⟨q, hq, he⟩
      exact hf.injOn (hf.valid.accepting_mem q hq) ht he ▸ hq

theorem isComplete (hc : d.isComplete = true) : (d.relabelled f).isComplete = true := by
  refine isComplete_iff.mpr fun k hk a ha => ?_
  have ⟨s, hs, he⟩ := SortedSet.mem_image.mp hk
  have ⟨t, ht⟩ := isComplete_iff.mp hc s hs a ha
  exact ⟨f t, by rw [← he, hf.next_eq hs, ht, Option.map_some]⟩

theorem exists_run (hr : ∀ s ∈ d.states, ∃ w, d.run d.start w = some s)
    (hk : k ∈ (d.relabelled f).states) :
    ∃ w, (d.relabelled f).run (d.relabelled f).start w = some k := by
  have ⟨s, hs, he⟩ := SortedSet.mem_image.mp hk
  have ⟨w, hw⟩ := hr s hs
  exact ⟨w, by rw [hf.run_start_eq, hw, Option.map_some, he]⟩

end Relabelling

theorem mem_readableEntries_iff {label : String} : (s, label) ∈ d.readableEntries ↔
    d.start = some s ∧ label = startLabel ∨
      ∃ k, (d.states.toList.filter (d.start ≠ some ·))[k]? = some s ∧
        label = readable startLabel k := by
  simp [readableEntries, List.mk_mem_zipIdx_iff_getElem?, eq_comm]

-- The readable label of a state: that of the start state, or the one with the state's number among
-- the others.
theorem exists_readableLabel (hs : s ∈ d.states) : ∃ label, d.readableLabels.find? s = some label ∧
    (d.start = some s ∧ label = startLabel ∨
      ∃ k, (d.states.toList.filter (d.start ≠ some ·))[k]? = some s ∧
        label = readable startLabel k) := by
  rw [readableLabels, Table.find?_ofList]
  cases hl : Table.lookup s d.readableEntries
  case some label =>
    exact ⟨label, rfl, mem_readableEntries_iff.mp (Table.mem_of_lookup_eq_some hl)⟩
  case none =>
    have hn := Table.lookup_eq_none_iff.mp hl
    by_cases hd : d.start = some s
    case pos => exact absurd rfl (hn _ (mem_readableEntries_iff.mpr (.inl ⟨hd, rfl⟩)))
    case neg =>
      have ho : s ∈ d.states.toList.filter (d.start ≠ some ·) :=
        List.mem_filter.mpr ⟨hs, by simpa using hd⟩
      obtain ⟨k, hk⟩ := List.mem_iff_getElem?.mp ho
      exact absurd rfl (hn _ (mem_readableEntries_iff.mpr (.inr ⟨k, hk, rfl⟩)))

theorem readableLabels_injOn :
    Set.InjOn (fun s => (d.readableLabels.find? s).getD s) {s | s ∈ d.states} := by
  intro s hs q hq he
  have ⟨label, hl, h⟩ := exists_readableLabel hs
  have ⟨label', hl', h'⟩ := exists_readableLabel hq
  simp only [hl, hl', Option.getD_some] at he
  subst he
  rcases h with ⟨hs, rfl⟩ | ⟨j, hj, rfl⟩ <;> rcases h' with ⟨hq, h'⟩ | ⟨k, hk, h'⟩
  · exact Option.some.inj (hs.symm.trans hq)
  · exact absurd h'.symm readable_ne_startLabel
  · exact absurd h' readable_ne_startLabel
  · have hjk := readable_injective h'
    exact Option.some.inj (hj.symm.trans (hjk ▸ hk))

end RightLinear.DFA
