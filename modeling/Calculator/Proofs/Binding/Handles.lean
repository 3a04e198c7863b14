import Calculator.Binding.Handles
import Mathlib.Data.List.Dedup

/-!
# Bindings that share a cell

Bindings refer to the same cell if and only if they come from the same source, whatever has been
looked up, made, cloned, read and written before (`Handles.after_follows`). The invariant gives every
source a cell of its own; a new cell is one that no source has (`Handles.Follows.grow`).
-/

namespace Calculator

open Handling

/-! ### Histories -/

namespace Handling

variable {history : List Handling} {name : Text}

theorem originOf_of_some {v : Float} (h : Environment.constants.lookup name = some v) :
    originOf name = .fixed v := by
  rw [originOf, h]

theorem originOf_of_none (h : Environment.constants.lookup name = none) :
    originOf name = .shared (.named name) := by
  rw [originOf, h]

theorem declared_of_some {v : Float} (h : Environment.constants.lookup name = some v)
    (history : List Handling) : declared (.lookup name :: history) = declared history := by
  rw [declared, h]

theorem declared_of_none (h : Environment.constants.lookup name = none) (history : List Handling) :
    declared (.lookup name :: history) = name :: declared history := by
  rw [declared, h]

/-- A cloned binding is no new source. -/
theorem mem_of_clone {i : Nat} {o : Origin} (h : o ∈ (origins history)[i]?.toList) :
    o ∈ origins history :=
  List.mem_of_getElem? (Option.mem_toList.mp h)

theorem lt_of_created {k : Nat} (h : .shared (.created k) ∈ origins history) :
    k < (origins history).length := by
  induction history with
  | nil => cases h
  | cons step earlier ih =>
    cases step with
    | lookup name =>
      rw [origins, List.length_append]
      rcases List.mem_append.mp h with old | new
      · exact Nat.lt_add_right _ (ih old)
      · unfold originOf at new
        split at new <;> cases List.mem_singleton.mp new
    | fixed v =>
      rw [origins, List.length_append]
      rcases List.mem_append.mp h with old | new
      · exact Nat.lt_add_right _ (ih old)
      · cases List.mem_singleton.mp new
    | create v =>
      rw [origins, List.length_append]
      rcases List.mem_append.mp h with old | new
      · exact Nat.lt_add_right _ (ih old)
      · cases List.mem_singleton.mp new
        exact Nat.lt_add_one _
    | clone i =>
      rw [origins, List.length_append]
      rcases List.mem_append.mp h with old | copy
      · exact Nat.lt_add_right _ (ih old)
      · exact Nat.lt_add_right _ (ih (mem_of_clone copy))
    | read i => exact ih h
    | write i v operator => exact ih h

theorem mem_declared_iff : name ∈ declared history ↔ .shared (.named name) ∈ origins history := by
  induction history with
  | nil => exact iff_of_false List.not_mem_nil List.not_mem_nil
  | cons step earlier ih =>
    cases step with
    | lookup m =>
      rw [origins, List.mem_append, List.mem_singleton, ← ih]
      cases h : Environment.constants.lookup m with
      | some v => simp [declared_of_some h, originOf_of_some h]
      | none => simp [declared_of_none h, originOf_of_none h, or_comm]
    | fixed v => simp [declared, origins, ih]
    | create v => simp [declared, origins, ih]
    | clone i =>
      show name ∈ declared earlier ↔ _
      rw [origins, List.mem_append, ih]
      exact ⟨.inl, fun h => h.elim id mem_of_clone⟩
    | read i => exact ih
    | write i v operator => exact ih

/-- Nothing has been written where no binding comes from. -/
theorem value_of_not_mem (h : .shared (.named name) ∉ origins history) :
    value (.named name) history = 0.0 := by
  induction history with
  | nil => rfl
  | cons step earlier ih =>
    cases step with
    | lookup m | fixed v | clone i => exact ih fun old => h (List.mem_append_left _ old)
    | create v =>
      rw [value, if_neg (nomatch ·)]
      exact ih fun old => h (List.mem_append_left _ old)
    | read i => exact ih h
    | write i v operator =>
      have other : (origins earlier)[i]? ≠ some (.shared (.named name)) :=
        fun through => h (List.mem_of_getElem? through)
      rw [value, if_neg other]
      exact ih h

end Handling

theorem Environment.find?_initial (name : Text) :
    Environment.initial.find? name = (Environment.constants.lookup name).map Binding.fixed := by
  unfold Environment.initial Environment.find?
  generalize Environment.constants = constants
  induction constants with
  | nil => rfl
  | cons p rest ih =>
    obtain ⟨n, v⟩ := p
    rw [List.map_cons, List.lookup_cons, List.lookup_cons]
    split
    · rfl
    · exact ih

/-! ### Sources and their cells -/

def Origin.binding (place : Source → Cell) : Origin → Binding
  | .fixed v => .fixed v
  | .shared source => .cell (place source)

namespace Handles

/-- Every source has a cell of its own, which holds what was last written there, and every name that
has been looked up is bound to the cell that it is the source of. -/
structure Follows (place : Source → Cell) (history : List Handling) (t : Handles) : Prop where
  bindings : t.bindings = (origins history).map (Origin.binding place)
  holds : ∀ {source}, .shared source ∈ origins history → t.store.Holds (place source)
  apart : ∀ {source other}, .shared source ∈ origins history → .shared other ∈ origins history →
    place source = place other → source = other
  reads : ∀ {source}, .shared source ∈ origins history →
    t.store.read (place source) = value source history
  constant : ∀ {name v}, Environment.constants.lookup name = some v →
    t.environment.find? name = some (.fixed v)
  named : ∀ {name}, .shared (.named name) ∈ origins history →
    t.environment.find? name = some (.cell (place (.named name)))
  unknown : ∀ {name}, Environment.constants.lookup name = none →
    .shared (.named name) ∉ origins history → t.environment.find? name = none
  size : t.environment.size = 6 + (declared history).dedup.length

namespace Follows

variable {place : Source → Cell} {history : List Handling} {t : Handles} {step : Handling}

theorem start (place : Source → Cell) (store : Store) : (start store).Follows place [] where
  bindings := rfl
  holds h := nomatch h
  apart h := nomatch h
  reads h := nomatch h
  constant h := by
    show Environment.initial.find? _ = _
    rw [Environment.find?_initial, h]
    rfl
  named h := nomatch h
  unknown h _ := by
    show Environment.initial.find? _ = _
    rw [Environment.find?_initial, h]
    rfl
  size := rfl

/-- More bindings from sources that there are. -/
theorem known (h : t.Follows place history) (more : List Origin)
    (origin : origins (step :: history) = origins history ++ more)
    (old : ∀ source, .shared source ∈ more → .shared source ∈ origins history)
    (values : ∀ source, value source (step :: history) = value source history)
    (names : (declared (step :: history)).dedup.length = (declared history).dedup.length)
    (performs : t.perform step =
      { t with bindings := t.bindings ++ more.map (Origin.binding place) }) :
    (t.perform step).Follows place (step :: history) := by
  have live {source : Source} :
      .shared source ∈ origins (step :: history) ↔ .shared source ∈ origins history := by
    rw [origin, List.mem_append]
    exact ⟨fun found => found.elim id (old source), .inl⟩
  rw [performs]
  exact {
    bindings := by rw [origin, List.map_append, ← h.bindings]
    holds := fun found => h.holds (live.mp found)
    apart := fun found found' => h.apart (live.mp found) (live.mp found')
    reads := fun found => (h.reads (live.mp found)).trans (values _).symm
    constant := h.constant
    named := fun found => h.named (live.mp found)
    unknown := fun name new => h.unknown name fun found => new (live.mpr found)
    size := names ▸ h.size }

/-- A source that is new gets a cell that is new. -/
theorem grow (h : t.Follows place history) {source : Source} (v : Float) (environment : Environment)
    (new : .shared source ∉ origins history)
    (origin : origins (step :: history) = origins history ++ [.shared source])
    (values : ∀ other, value other (step :: history) =
      if other = source then v else value other history)
    (found : ∀ name, environment.find? name =
      if source = .named name then some (.cell (t.store.allocate v).1)
      else t.environment.find? name)
    (unfixed : ∀ name, source = .named name → Environment.constants.lookup name = none)
    (size : environment.size = 6 + (declared (step :: history)).dedup.length)
    (performs : t.perform step =
      ⟨environment, (t.store.allocate v).2, t.bindings ++ [.cell (t.store.allocate v).1]⟩) :
    (t.perform step).Follows (Function.update place source (t.store.allocate v).1)
      (step :: history) := by
  have live {other : Source} : .shared other ∈ origins (step :: history) ↔
      .shared other ∈ origins history ∨ other = source := by
    rw [origin, List.mem_append, List.mem_singleton, Origin.shared.injEq]
  have other_ne {other : Source} (old : .shared other ∈ origins history) : other ≠ source := by
    rintro rfl
    exact new old
  have fresh {other : Source} (old : .shared other ∈ origins history) :
      place other ≠ (t.store.allocate v).1 := by
    intro same
    have inside : t.store.Holds (place other) := h.holds old
    rw [same] at inside
    exact Nat.lt_irrefl _ inside
  have stays {other : Source} (old : .shared other ∈ origins history) :
      Function.update place source (t.store.allocate v).1 other = place other :=
    Function.update_of_ne (other_ne old) _ _
  have takes : Function.update place source (t.store.allocate v).1 source =
      (t.store.allocate v).1 := Function.update_self _ _ _
  have same : ∀ o ∈ origins history,
      o.binding (Function.update place source (t.store.allocate v).1) = o.binding place := by
    intro o ho
    cases o with
    | fixed u => rfl
    | shared other => exact congrArg Binding.cell (stays ho)
  rw [performs]
  constructor
  case bindings =>
    rw [origin, List.map_append, List.map_congr_left same, ← h.bindings, List.map_singleton,
      Origin.binding, takes]
  case holds =>
    intro other alive
    rcases live.mp alive with old | rfl
    · rw [stays old]
      exact (h.holds old).allocate v
    · rw [takes]
      exact Store.holds_allocate _ _
  case apart =>
    intro other other' alive alive' same
    rcases live.mp alive with old | rfl <;> rcases live.mp alive' with old' | rfl
    · rw [stays old, stays old'] at same
      exact h.apart old old' same
    · rw [stays old, takes] at same
      exact absurd same (fresh old)
    · rw [stays old', takes] at same
      exact absurd same.symm (fresh old')
    · rfl
  case reads =>
    intro other alive
    rcases live.mp alive with old | rfl
    · rw [stays old, values, if_neg (other_ne old), ← h.reads old]
      exact (h.holds old).read_allocate v
    · rw [takes, values, if_pos rfl]
      exact Store.read_allocate _ _
  case constant =>
    intro name u constant
    have other : source ≠ .named name := by
      intro same
      rw [unfixed name same] at constant
      cases constant
    rw [found, if_neg other]
    exact h.constant constant
  case named =>
    intro name alive
    rw [found]
    rcases live.mp alive with old | rfl
    · rw [if_neg (other_ne old).symm, stays old]
      exact h.named old
    · rw [if_pos rfl, takes]
  case unknown =>
    intro name constant dead
    have dead' := fun alive => dead (live.mpr alive)
    rw [found, if_neg fun same => dead' (.inr same.symm)]
    exact h.unknown constant fun old => dead' (.inl old)
  case size => exact size

/-- A write reaches the cell of one source only. -/
theorem written (h : t.Follows place history) {source : Source} (v : Float)
    (live : .shared source ∈ origins history)
    (origin : origins (step :: history) = origins history)
    (values : ∀ other, value other (step :: history) =
      if other = source then v else value other history)
    (names : declared (step :: history) = declared history)
    (performs : t.perform step = { t with store := t.store.write (place source) v }) :
    (t.perform step).Follows place (step :: history) := by
  rw [performs]
  constructor
  case bindings =>
    rw [origin]
    exact h.bindings
  case holds =>
    intro other alive
    exact Store.holds_write.mpr (h.holds (origin ▸ alive))
  case apart =>
    intro other other' alive alive'
    exact h.apart (origin ▸ alive) (origin ▸ alive')
  case reads =>
    intro other alive
    rw [origin] at alive
    rw [values]
    split
    case isTrue same =>
      subst same
      exact (h.holds live).read_write v
    case isFalse different =>
      have apart : place source ≠ place other :=
        fun same => different (h.apart alive live same.symm)
      rw [← h.reads alive]
      exact Store.read_write_of_ne apart v
  case constant => exact h.constant
  case named =>
    intro name alive
    exact h.named (origin ▸ alive)
  case unknown =>
    intro name constant dead
    exact h.unknown constant (origin ▸ dead)
  case size =>
    rw [names]
    exact h.size

theorem lookup (h : t.Follows place history) (name : Text) :
    ∃ place, (t.perform (.lookup name)).Follows place (.lookup name :: history) := by
  have same (source : Source) : value source (.lookup name :: history) = value source history := rfl
  cases constant : Environment.constants.lookup name with
  | some v =>
    have origin : origins (.lookup name :: history) = origins history ++ [.fixed v] := by
      rw [origins, originOf_of_some constant]
    refine ⟨place, h.known [.fixed v] origin (by simp) same (by rw [declared_of_some constant]) ?_⟩
    rw [perform, Environment.lookup_of_some (h.constant constant)]
    rfl
  | none =>
    have origin : origins (.lookup name :: history) =
        origins history ++ [.shared (.named name)] := by
      rw [origins, originOf_of_none constant]
    have names := declared_of_none constant history
    -- bound by an earlier lookup, or declared now
    by_cases found : .shared (.named name) ∈ origins history
    · have again : name ∈ declared history := mem_declared_iff.mpr found
      refine ⟨place, h.known [.shared (.named name)] origin (by simpa using found) same ?_ ?_⟩
      · rw [names, List.dedup_cons_of_mem again]
      · rw [perform, Environment.lookup_of_some (h.named found)]
        rfl
    · have first : name ∉ declared history := fun again => found (mem_declared_iff.mp again)
      have unbound := h.unknown constant found
      refine ⟨_, h.grow 0.0 ⟨(name, .cell (t.store.allocate 0.0).1) :: t.environment.entries⟩ found
        origin ?_ ?_ ?_ ?_ ?_⟩
      · intro other
        split
        case isTrue new => rw [new, same, value_of_not_mem found]
        case isFalse => rfl
      · intro m
        rw [Environment.find?_cons]
        simp [eq_comm]
      · rintro m ⟨⟩
        exact constant
      · rw [names, List.dedup_cons_of_notMem first, List.length_cons]
        have size := h.size
        show t.environment.entries.length + 1 = _
        unfold Environment.size at size
        omega
      · rw [perform, Environment.lookup_of_none unbound]

theorem create (h : t.Follows place history) (v : Float) :
    ∃ place, (t.perform (.create v)).Follows place (.create v :: history) := by
  have new : .shared (.created (origins history).length) ∉ origins history :=
    fun old => Nat.lt_irrefl _ (lt_of_created old)
  refine ⟨_, h.grow v t.environment new rfl (fun _ => rfl) ?_ ?_ h.size rfl⟩
  · intro name
    rw [if_neg (nomatch ·)]
  · exact fun name same => nomatch same

theorem clone (h : t.Follows place history) (i : Nat) :
    (t.perform (.clone i)).Follows place (.clone i :: history) := by
  refine h.known (origins history)[i]?.toList rfl (fun _ copy => mem_of_clone copy) (fun _ => rfl)
    rfl ?_
  rw [perform, h.bindings, List.getElem?_map]
  cases (origins history)[i]? <;> rfl

theorem write (h : t.Follows place history) (i : Nat) (v : Float) (operator : Text) :
    (t.perform (.write i v operator)).Follows place (.write i v operator :: history) := by
  have binding : t.bindings[i]? = (origins history)[i]?.map (Origin.binding place) := by
    rw [h.bindings, List.getElem?_map]
  have unwritten (nowhere : ∀ source, (origins history)[i]? ≠ some (.shared source))
      (performs : t.perform (.write i v operator) = t) :
      (t.perform (.write i v operator)).Follows place (.write i v operator :: history) := by
    refine h.known [] (List.append_nil _).symm (fun _ none => nomatch none) ?_ rfl ?_
    · exact fun source => if_neg (nowhere source)
    · rw [performs, List.map_nil, List.append_nil]
  cases origin : (origins history)[i]? with
  | none =>
    refine unwritten (fun source => by rw [origin]; exact nofun) ?_
    rw [perform, binding, origin]
    rfl
  | some o =>
    cases o with
    | fixed u =>
      refine unwritten (fun source => by rw [origin]; exact nofun) ?_
      rw [perform, binding, origin]
      rfl
    | shared source =>
      refine h.written v (List.mem_of_getElem? origin) rfl (fun other => ?_) rfl ?_
      · rw [value, origin]
        simp [eq_comm]
      · rw [perform, binding, origin]
        rfl

end Follows

theorem after_follows (store : Store) (history : List Handling) :
    ∃ place, (after store history).Follows place history := by
  induction history with
  | nil => exact ⟨fun _ => ⟨0⟩, .start _ store⟩
  | cons step earlier ih =>
    obtain ⟨place, h⟩ := ih
    cases step with
    | lookup name => exact h.lookup name
    | fixed v => exact ⟨place, h.known [.fixed v] rfl (by simp) (fun _ => rfl) rfl rfl⟩
    | create v => exact h.create v
    | clone i => exact ⟨place, h.clone i⟩
    | read i =>
      exact ⟨place, h.known [] (List.append_nil _).symm (fun _ none => nomatch none) (fun _ => rfl) rfl
        (by simp [perform])⟩
    | write i v operator => exact ⟨place, h.write i v operator⟩

/-! ### What becomes of a binding -/

theorem prefix_perform (t : Handles) (step : Handling) : t.bindings <+: (t.perform step).bindings := by
  cases step with
  | lookup name | fixed v | create v | clone i => exact List.prefix_append _ _
  | read i => exact List.prefix_rfl
  | write i v operator =>
    rw [perform]
    cases t.bindings[i]? with
    | none => exact List.prefix_rfl
    | some b => cases b <;> exact List.prefix_rfl

theorem prefix_origins (step : Handling) (history : List Handling) :
    origins history <+: origins (step :: history) := by
  cases step with
  | lookup name | fixed v | create v | clone i => exact List.prefix_append _ _
  | read i | write i v operator => exact List.prefix_rfl

/-- No binding that has been handed out is replaced, and it keeps its origin. -/
theorem prefix_after (store : Store) (later history : List Handling) :
    (after store history).bindings <+: (after store (later ++ history)).bindings ∧
      origins history <+: origins (later ++ history) := by
  induction later with
  | nil => exact ⟨List.prefix_rfl, List.prefix_rfl⟩
  | cons step later ih =>
    exact ⟨ih.1.trans (prefix_perform _ step), ih.2.trans (prefix_origins step _)⟩

variable {place : Source → Cell} {history : List Handling} {t : Handles}

theorem Follows.binding (h : t.Follows place history) {i : Nat} {b : Binding} {o : Origin}
    (hb : t.bindings[i]? = some b) (ho : (origins history)[i]? = some o) : b = o.binding place := by
  rw [h.bindings, List.getElem?_map, ho] at hb
  exact (Option.some.inj hb).symm

theorem Follows.sameCell (h : t.Follows place history) {o p : Origin} (ho : o ∈ origins history)
    (hp : p ∈ origins history) : (o.binding place).sameCell (p.binding place) ↔
      ∃ source, o = .shared source ∧ p = .shared source := by
  cases o with
  | fixed v => exact ⟨fun same => (nomatch same), fun ⟨_, same, _⟩ => nomatch same⟩
  | shared source =>
    cases p with
    | fixed v => exact ⟨fun same => (nomatch same), fun ⟨_, _, same⟩ => nomatch same⟩
    | shared other =>
      constructor
      · intro same
        obtain rfl := h.apart ho hp (of_decide_eq_true same)
        exact ⟨source, rfl, rfl⟩
      · rintro ⟨_, ⟨⟩, ⟨⟩⟩
        exact decide_eq_true rfl

/-- A write through a binding reaches the bindings that share its cell. -/
theorem Follows.read_write (h : t.Follows place history) {source : Source} {p : Origin}
    (live : .shared source ∈ origins history) (v : Float) :
    (p.binding place).read (t.store.write (place source) v) =
      if (Binding.cell (place source)).sameCell (p.binding place) then v
      else (p.binding place).read t.store := by
  cases p with
  | fixed u => rfl
  | shared other =>
    by_cases same : place source = place other
    · have shared : (Binding.cell (place source)).sameCell (.cell (place other)) :=
        decide_eq_true same
      rw [Origin.binding, if_pos shared, Binding.read, ← same]
      exact (h.holds live).read_write v
    · have apart : ¬ (Binding.cell (place source)).sameCell (.cell (place other)) :=
        fun shared => same (of_decide_eq_true shared)
      rw [Origin.binding, if_neg apart]
      exact Store.read_write_of_ne same v

/-- Whatever has been done: two bindings refer to one cell if they are of one source, and else not;
a variable reads what was last written through a binding of its source, and a write to it reaches no
other source; a fixed binding reads its own value and refuses every write; and the environment has
grown by one variable for each name that was looked up and is no constant. -/
theorem after_shares (store : Store) (history : List Handling) :
    let t := after store history
    let os := origins history
    (∀ later, t.bindings <+: (after store (later ++ history)).bindings ∧
      os <+: origins (later ++ history)) ∧
    t.bindings.length = os.length ∧
    t.environment.size = 6 + (declared history).dedup.length ∧
    ∀ (i : Nat) (b : Binding) (o : Origin), t.bindings[i]? = some b → os[i]? = some o →
      (∀ (j : Nat) (d : Binding) (p : Origin), t.bindings[j]? = some d → os[j]? = some p →
        (b.sameCell d ↔ ∃ source, o = .shared source ∧ p = .shared source)) ∧
      match o with
      | .fixed v => b.read t.store = v ∧ ∀ u operator,
          b.write u operator t.store = .error (.immutableBinding operator) ∧
          t.perform (.write i u operator) = t
      | .shared source => b.read t.store = value source history ∧ ∀ u operator, ∃ next,
          b.write u operator t.store = .ok next ∧
          t.perform (.write i u operator) = { t with store := next } ∧
          ∀ (j : Nat) (d : Binding), t.bindings[j]? = some d →
            d.read next = if b.sameCell d then u else d.read t.store := by
  intro t os
  obtain ⟨place, h⟩ : ∃ place, t.Follows place history := after_follows store history
  have length : t.bindings.length = os.length := by rw [h.bindings, List.length_map]
  refine ⟨fun later => prefix_after store later history, length, h.size, fun i b o hb ho => ?_⟩
  have live := List.mem_of_getElem? ho
  obtain rfl := h.binding hb ho
  refine ⟨fun j d p hd hp => ?_, ?_⟩
  · obtain rfl := h.binding hd hp
    exact h.sameCell live (List.mem_of_getElem? hp)
  cases o with
  | fixed v =>
    refine ⟨rfl, fun u operator => ⟨rfl, ?_⟩⟩
    rw [perform, hb]
    rfl
  | shared source =>
    refine ⟨h.reads live, fun u operator => ⟨_, rfl, ?_, fun j d hd => ?_⟩⟩
    · rw [perform, hb]
      rfl
    · have inside : j < os.length := length ▸ (List.getElem?_eq_some_iff.mp hd).1
      obtain rfl := h.binding hd (List.getElem?_eq_getElem inside)
      exact h.read_write live u

end Handles

end Calculator
