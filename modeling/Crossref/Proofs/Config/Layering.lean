/-
What one configuration laid over another says, path by path. A path is a row of
keys, and what is found at its end is a value, a mapping or something else. What the
upper layer sets at a path counts there and hides everything below; where it sets
nothing the lower layer shows. No key is lost or made up, and a layer that is laid
over a second time changes nothing.
-/
import Mathlib.Data.List.Nodup
import Crossref.Config.Layer

namespace Crossref.Config

/-! ## Paths -/

/-- What tells the entries apart. -/
def Mapping.keys (m : Mapping) : List Key :=
  m.map (·.1.key)

/-- The value at a path of keys; the empty path leads to the value itself. -/
def Value.at? : Value → List Scalar → Option Value
  | v, [] => some v
  | .mapping m, key :: path => (Mapping.get? m key).bind (·.at? path)
  | .list _, _ :: _ => none
  | .scalar _, _ :: _ => none

def Value.isMapping : Value → Bool
  | .mapping _ => true
  | _ => false

/-- No mapping has a key twice, at any depth; one number in two spellings is one key. -/
inductive Value.Distinct : Value → Prop
  | scalar (s : Scalar) : Distinct (.scalar s)
  | list (items : List Value) : Distinct (.list items)
  | mapping {m : Mapping} (keys : m.keys.Nodup) (values : ∀ e ∈ m, e.2.Distinct) : Distinct (.mapping m)

/-- The value sets something other than a mapping on the way to the path, before its end. -/
def Value.Hides (v : Value) (path : List Scalar) : Prop :=
  ∃ q, q <+: path ∧ q ≠ path ∧ ∃ u, v.at? q = some u ∧ u.isMapping = false

namespace Value

variable {v old : Value} {m base : Mapping} {key : Scalar} {path : List Scalar}

theorem at?_mapping_cons (m : Mapping) (key : Scalar) (path : List Scalar) :
    (mapping m).at? (key :: path) = (Mapping.get? m key).bind (·.at? path) := rfl

/-- Nothing is below a value that is no mapping. -/
theorem at?_cons_of_not_mapping (h : v.isMapping = false) (key : Scalar) (path : List Scalar) :
    v.at? (key :: path) = none := by
  cases v with
  | scalar | list => rfl
  | mapping => cases h

theorem at?_append (v : Value) (p q : List Scalar) : v.at? (p ++ q) = (v.at? p).bind (·.at? q) := by
  induction p generalizing v with
  | nil => rfl
  | cons key p ih =>
    cases v with
    | scalar | list => rfl
    | mapping m =>
      rw [List.cons_append, at?_mapping_cons, at?_mapping_cons, Option.bind_assoc]
      exact Option.bind_congr fun w _ => ih w

/-- A path that is hidden leads nowhere. -/
theorem Hides.at? (h : v.Hides path) : v.at? path = none := by
  obtain ⟨q, ⟨rest, rfl⟩, hne, u, hu, hleaf⟩ := h
  rw [at?_append, hu, Option.bind_some]
  cases rest with
  | nil => exact absurd (List.append_nil q).symm hne
  | cons key rest => exact at?_cons_of_not_mapping hleaf key rest

theorem Hides.cons {w : Value} (hw : Mapping.get? m key = some w) (h : w.Hides path) :
    (mapping m).Hides (key :: path) := by
  obtain ⟨q, ⟨rest, rfl⟩, hne, u, hu, hleaf⟩ := h
  refine ⟨key :: q, ⟨rest, rfl⟩, fun heq => hne (List.cons.inj heq).2, u, ?_, hleaf⟩
  rw [at?_mapping_cons, hw, Option.bind_some, hu]

theorem hides_of_not_mapping (h : v.isMapping = false) (key : Scalar) (path : List Scalar) :
    v.Hides (key :: path) :=
  ⟨[], List.nil_prefix, by simp, v, rfl, h⟩

/-! ## Laying over -/

theorem over_of_not_mapping (h : v.isMapping = false) (old : Value) : v.over old = v := by
  cases v with
  | scalar | list => rw [Value.over]
  | mapping => cases h

theorem over_not_mapping (v : Value) (h : old.isMapping = false) : v.over old = v := by
  cases v with
  | scalar | list => rw [Value.over]
  | mapping m =>
    cases old with
    | scalar | list => rw [Value.over]; simp
    | mapping => cases h

end Value

namespace Mapping

variable {m : Mapping} {key k : Scalar} {v w : Value}

theorem keys_eq (m : Mapping) : m.keys = (m.map (·.1)).map Scalar.key := by
  simp [keys]

theorem get?_eq_none : m.get? k = none ↔ k.key ∉ m.keys := by
  rw [get?, Option.map_eq_none_iff, List.find?_eq_none, keys, List.mem_map]
  simp only [decide_eq_true_eq, not_exists, not_and]

theorem mem_of_get? (h : m.get? k = some w) : ∃ e ∈ m, e.1.key = k.key ∧ e.2 = w := by
  simp only [get?, Option.map_eq_some_iff] at h
  obtain ⟨e, he, rfl⟩ := h
  exact ⟨e, List.mem_of_find?_eq_some he, by simpa using List.find?_some he, rfl⟩

/-- What holds of all values holds of the one that is found. -/
theorem get?_induct {P : Value → Prop} (h : ∀ e ∈ m, P e.2) (hw : m.get? k = some w) : P w := by
  obtain ⟨e, he, -, rfl⟩ := mem_of_get? hw
  exact h e he

theorem get?_of_mem (h : m.keys.Nodup) {e : Scalar × Value} (he : e ∈ m) (hk : e.1.key = k.key) :
    m.get? k = some e.2 := by
  obtain ⟨u, hu⟩ := Option.ne_none_iff_exists'.1 fun hnone =>
    get?_eq_none.1 hnone (List.mem_map.2 ⟨e, he, hk⟩)
  obtain ⟨d, hd, hdk, rfl⟩ := mem_of_get? hu
  rw [hu, List.inj_on_of_nodup_map h hd he (hdk.trans hk.symm)]

/-- Setting a key puts it at the end if it is new. -/
theorem map_fst_set (m : Mapping) (key : Scalar) (v : Value) :
    (m.set key v).map (·.1) = if key.key ∈ m.keys then m.map (·.1) else m.map (·.1) ++ [key] := by
  have hany : m.any (·.1.key = key.key) = true ↔ key.key ∈ m.keys := by simp [keys]
  unfold set
  by_cases hold : key.key ∈ m.keys
  · rw [if_pos (hany.2 hold), if_pos hold, List.map_map]
    refine List.map_congr_left fun e _ => ?_
    by_cases he : e.1.key = key.key <;> simp [he]
  · rw [if_neg fun h => hold (hany.1 h), if_neg hold, List.map_append, List.map_singleton]

theorem keys_set (m : Mapping) (key : Scalar) (v : Value) :
    (m.set key v).keys = if key.key ∈ m.keys then m.keys else m.keys ++ [key.key] := by
  rw [keys_eq, map_fst_set]
  split
  · exact m.keys_eq.symm
  · rw [List.map_append, ← keys_eq, List.map_singleton]

theorem get?_set (m : Mapping) (key : Scalar) (v : Value) (k : Scalar) :
    (m.set key v).get? k = if k.key = key.key then some v else m.get? k := by
  unfold set get?
  split
  next hold =>
    -- an entry that is replaced keeps its key
    have hsame : ((fun e : Scalar × Value => decide (e.1.key = k.key)) ∘
        fun e => if e.1.key = key.key then (e.1, v) else e) = fun e => decide (e.1.key = k.key) := by
      funext e
      by_cases he : e.1.key = key.key <;> simp [he]
    rw [List.find?_map, hsame, Option.map_map]
    cases hfound : m.find? (·.1.key = k.key) with
    | none =>
      have hne : k.key ≠ key.key := by
        intro heq
        obtain ⟨e, he, hekey⟩ := List.any_eq_true.1 hold
        exact List.find?_eq_none.1 hfound e he (heq ▸ hekey)
      rw [if_neg hne]
      rfl
    | some e =>
      have he : e.1.key = k.key := by simpa using List.find?_some hfound
      by_cases hk : k.key = key.key <;> simp [he, hk]
  next hnew =>
    by_cases hk : k.key = key.key
    · have hnone : m.find? (·.1.key = key.key) = none :=
        List.find?_eq_none.2 fun e he heq => hnew (List.any_eq_true.2 ⟨e, he, heq⟩)
      simp [hk, List.find?_append, hnone]
    · simp [List.find?_append, hk, Ne.symm hk]

/-- Setting a key to the value that it has changes nothing. -/
theorem set_eq_self (h : m.keys.Nodup) (hv : m.get? key = some v) : m.set key v = m := by
  obtain ⟨d, hd, hdk, rfl⟩ := mem_of_get? hv
  unfold set
  rw [if_pos (List.any_eq_true.2 ⟨d, hd, by simpa using hdk⟩)]
  refine (List.map_congr_left fun e he => ?_).trans (List.map_id m)
  by_cases heq : e.1.key = key.key
  · rw [if_pos heq, ← List.inj_on_of_nodup_map h he hd (heq.trans hdk.symm)]
    rfl
  · rw [if_neg heq]
    rfl

variable {upper base : Mapping}

theorem over_cons (key : Scalar) (v : Value) (rest base : Mapping) :
    Mapping.over ((key, v) :: rest) base = Mapping.over rest (base.set key ((base.get? key).elim v v.over)) := by
  rw [Mapping.over]
  cases base.get? key <;> rfl

/-- The entries of the upper layer come to stand over those of the lower one, key by key. -/
theorem get?_over (h : upper.keys.Nodup) (base : Mapping) (k : Scalar) :
    (Mapping.over upper base).get? k =
      (upper.get? k).elim (base.get? k) fun v => some ((base.get? k).elim v v.over) := by
  induction upper generalizing base with
  | nil => rw [Mapping.over]; rfl
  | cons e rest ih =>
    obtain ⟨key, v⟩ := e
    obtain ⟨hkey, hrest⟩ := List.nodup_cons.1 h
    rw [over_cons, ih hrest, get?_set]
    by_cases hk : k.key = key.key
    · have hnone : Mapping.get? rest k = none := get?_eq_none.2 (hk ▸ hkey)
      rw [hnone, if_pos hk, Option.elim_none]
      simp [get?, hk]
    · rw [if_neg hk]
      simp [get?, Ne.symm hk]

/-- The keys of the lower layer come first, and then the new ones. -/
theorem map_fst_over (h : upper.keys.Nodup) (base : Mapping) :
    (Mapping.over upper base).map (·.1) =
      base.map (·.1) ++ (upper.map (·.1)).filter (·.key ∉ base.keys) := by
  induction upper generalizing base with
  | nil => rw [Mapping.over]; simp
  | cons e rest ih =>
    obtain ⟨key, v⟩ := e
    obtain ⟨hkey, hrest⟩ := List.nodup_cons.1 h
    rw [over_cons, ih hrest, map_fst_set, keys_set]
    by_cases hold : key.key ∈ base.keys
    · rw [if_pos hold, if_pos hold, List.map_cons, List.filter_cons, if_neg (by simpa using hold)]
    · have hsame : (rest.map (·.1)).filter (·.key ∉ base.keys ++ [key.key]) =
          (rest.map (·.1)).filter (·.key ∉ base.keys) := by
        refine List.filter_congr fun k hk => ?_
        obtain ⟨e, he, rfl⟩ := List.mem_map.1 hk
        have hne : e.1.key ≠ key.key := fun heq => hkey (List.mem_map.2 ⟨e, he, heq⟩)
        simp [hne]
      rw [if_neg hold, if_neg hold, hsame, List.map_cons, List.filter_cons, if_pos (by simpa using hold),
        List.append_assoc]
      rfl

theorem nodup_keys_over (hupper : upper.keys.Nodup) (hbase : base.keys.Nodup) :
    (Mapping.over upper base).keys.Nodup := by
  rw [keys_eq, map_fst_over hupper, List.map_append, ← keys_eq]
  refine List.Nodup.append hbase ?_ fun k hk hnew => ?_
  · rw [keys_eq] at hupper
    exact hupper.sublist (List.filter_sublist.map _)
  · obtain ⟨s, hs, rfl⟩ := List.mem_map.1 hnew
    exact of_decide_eq_true (List.mem_filter.1 hs).2 hk

/-- A layer that says nothing new changes nothing. -/
theorem over_eq_self (hbase : base.keys.Nodup)
    (h : ∀ e ∈ upper, ∃ w, base.get? e.1 = some w ∧ e.2.over w = w) : Mapping.over upper base = base := by
  induction upper with
  | nil => rw [Mapping.over]
  | cons e rest ih =>
    obtain ⟨key, v⟩ := e
    obtain ⟨w, hw, hsame⟩ := h (key, v) List.mem_cons_self
    rw [over_cons, hw, Option.elim_some, hsame, set_eq_self hbase hw]
    exact ih fun e he => h e (List.mem_cons_of_mem _ he)

end Mapping

namespace Value

variable {v old u : Value} {path : List Scalar}

/-- Laying over keeps the keys of every mapping distinct. -/
theorem Distinct.over (hv : v.Distinct) : ∀ {old : Value}, old.Distinct → (v.over old).Distinct := by
  induction hv with
  | scalar s =>
    intro old _
    rw [over_of_not_mapping rfl]
    exact .scalar s
  | list items =>
    intro old _
    rw [over_of_not_mapping rfl]
    exact .list items
  | @mapping m keys values ih =>
    intro old hold
    cases hold with
    | scalar | list =>
      rw [over_not_mapping _ rfl]
      exact .mapping keys values
    | @mapping base keys' values' =>
      have hkeys := Mapping.nodup_keys_over keys keys'
      rw [Value.over]
      refine .mapping hkeys fun e he => ?_
      have hfound := Mapping.get?_of_mem hkeys he rfl
      rw [Mapping.get?_over keys] at hfound
      cases hupper : Mapping.get? m e.1 with
      | none =>
        rw [hupper] at hfound
        exact Mapping.get?_induct values' hfound
      | some w =>
        rw [hupper, Option.elim_some, Option.some_inj] at hfound
        rw [← hfound]
        cases hbase : Mapping.get? base e.1 with
        | none => exact Mapping.get?_induct values hupper
        | some old =>
          obtain ⟨d, hd, -, rfl⟩ := Mapping.mem_of_get? hupper
          exact ih d hd (Mapping.get?_induct values' hbase)

theorem Distinct.over_self (hv : v.Distinct) : v.over v = v := by
  induction hv with
  | scalar s => exact over_of_not_mapping rfl _
  | list items => exact over_of_not_mapping rfl _
  | @mapping m keys values ih =>
    rw [Value.over]
    refine congrArg Value.mapping (Mapping.over_eq_self keys fun e he => ?_)
    exact ⟨e.2, Mapping.get?_of_mem keys he rfl, ih e he⟩

/-- Laying a value over a second time changes nothing. -/
theorem Distinct.over_over (hv : v.Distinct) :
    ∀ {old : Value}, old.Distinct → v.over (v.over old) = v.over old := by
  induction hv with
  | scalar | list =>
    intro old _
    rw [over_of_not_mapping rfl, over_of_not_mapping rfl]
  | @mapping m keys values ih =>
    intro old hold
    cases hmapping : old.isMapping with
    | false =>
      rw [over_not_mapping _ hmapping]
      exact (Distinct.mapping keys values).over_self
    | true =>
      cases hold with
      | scalar | list => cases hmapping
      | @mapping base keys' values' =>
        rw [Value.over, Value.over]
        refine congrArg Value.mapping (Mapping.over_eq_self (Mapping.nodup_keys_over keys keys') fun e he => ?_)
        refine ⟨_, by rw [Mapping.get?_over keys, Mapping.get?_of_mem keys he rfl, Option.elim_some], ?_⟩
        cases hbase : Mapping.get? base e.1 with
        | none => exact (values e he).over_self
        | some old => exact ih e he (Mapping.get?_induct values' hbase)

/-! ## What is found at a path -/

/-- What the upper value sets counts. -/
theorem Distinct.at?_over_of_leaf (hleaf : u.isMapping = false) : ∀ {path : List Scalar} {v old : Value},
    v.Distinct → v.at? path = some u → (v.over old).at? path = some u
  | [], v, old, _, h => by
    obtain rfl : v = u := Option.some.inj h
    rw [over_of_not_mapping hleaf]
    rfl
  | key :: path, v, old, hv, h => by
    cases hv with
    | scalar | list => cases h
    | @mapping m keys values =>
      cases old with
      | scalar | list =>
        rw [over_not_mapping _ rfl]
        exact h
      | mapping base =>
        rw [at?_mapping_cons, Option.bind_eq_some_iff] at h
        obtain ⟨w, hw, hu⟩ := h
        rw [Value.over, at?_mapping_cons, Mapping.get?_over keys, hw, Option.elim_some, Option.bind_some]
        cases Mapping.get? base key with
        | none => exact hu
        | some old => exact at?_over_of_leaf hleaf (Mapping.get?_induct values hw) hu

/-- Where the upper value sets nothing, at the path or on the way to it, the lower one shows. -/
theorem Distinct.at?_over_of_unset : ∀ {path : List Scalar} {v old : Value}, v.Distinct →
    v.at? path = none → ¬v.Hides path → (v.over old).at? path = old.at? path
  | [], v, old, _, h, _ => nomatch h
  | key :: path, v, old, hv, h, hopen => by
    cases hv with
    | scalar | list => exact absurd (hides_of_not_mapping rfl key path) hopen
    | @mapping m keys values =>
      cases old with
      | scalar | list =>
        rw [over_not_mapping _ rfl]
        exact h
      | mapping base =>
        rw [Value.over, at?_mapping_cons, at?_mapping_cons, Mapping.get?_over keys]
        cases hw : Mapping.get? m key with
        | none => rfl
        | some w =>
          rw [at?_mapping_cons, hw, Option.bind_some] at h
          rw [Option.elim_some, Option.bind_some]
          cases Mapping.get? base key with
          | none => exact h
          | some old =>
            exact at?_over_of_unset (Mapping.get?_induct values hw) h fun hhides => hopen (hhides.cons hw)

/-- What the upper value hides is not there. -/
theorem Distinct.at?_over_of_hides (hv : v.Distinct) (h : v.Hides path) (old : Value) :
    (v.over old).at? path = none := by
  obtain ⟨q, hq, hne, u, hu, hleaf⟩ := h
  exact Hides.at? ⟨q, hq, hne, u, hv.at?_over_of_leaf hleaf hu, hleaf⟩

end Value

/-! ## Layers -/

/-- The value at a path of keys in a layer. -/
def Mapping.at? (m : Mapping) (path : List Scalar) : Option Value :=
  (Value.mapping m).at? path

/-- **What a layer laid over another one says, path by path.** -/
theorem Mapping.over_by_paths {upper base : Mapping} (hupper : (Value.mapping upper).Distinct)
    (hbase : (Value.mapping base).Distinct) :
    (∀ path ≠ [],
      (∀ v, upper.at? path = some v → v.isMapping = false → (Mapping.over upper base).at? path = some v) ∧
      (upper.at? path = none → (∀ q, q <+: path → q ≠ path → ∀ v, upper.at? q = some v → v.isMapping = true) →
        (Mapping.over upper base).at? path = base.at? path) ∧
      ((∃ q, q <+: path ∧ q ≠ path ∧ ∃ v, upper.at? q = some v ∧ v.isMapping = false) →
        (Mapping.over upper base).at? path = none) ∧
      (upper.at? path = none → base.at? path = none → (Mapping.over upper base).at? path = none)) ∧
    (Mapping.over upper base).map (·.1) = base.map (·.1) ++ (upper.map (·.1)).filter (·.key ∉ base.keys) ∧
    Mapping.over upper (Mapping.over upper base) = Mapping.over upper base ∧
    (Value.mapping (Mapping.over upper base)).Distinct := by
  have hover : Value.mapping (Mapping.over upper base) = (Value.mapping upper).over (.mapping base) := by
    rw [Value.over]
  have hunset {path : List Scalar} (h : upper.at? path = none) (hopen : ¬(Value.mapping upper).Hides path) :
      (Mapping.over upper base).at? path = base.at? path := by
    unfold at?
    rw [hover]
    exact hupper.at?_over_of_unset h hopen
  have hhidden {path : List Scalar} (h : (Value.mapping upper).Hides path) :
      (Mapping.over upper base).at? path = none := by
    unfold at?
    rw [hover]
    exact hupper.at?_over_of_hides h _
  refine ⟨fun path _ => ⟨fun v hv hleaf => ?_, fun h hprefixes => hunset h ?_, hhidden, fun h h' => ?_⟩, ?_, ?_, ?_⟩
  · unfold at?
    rw [hover]
    exact hupper.at?_over_of_leaf hleaf hv
  · rintro ⟨q, hq, hne, v, hv, hleaf⟩
    rw [hprefixes q hq hne v hv] at hleaf
    cases hleaf
  · by_cases hhides : (Value.mapping upper).Hides path
    · exact hhidden hhides
    · exact (hunset h hhides).trans h'
  · cases hupper with
    | mapping keys => exact map_fst_over keys base
  · have htwice := hupper.over_over hbase
    rw [← hover, Value.over] at htwice
    exact Value.mapping.inj htwice
  · exact hover ▸ hupper.over hbase

/-! ## Layers that clash -/

namespace Clashing

def lower : Mapping :=
  [(.text "index", .mapping [(.text "memory_threshold", .scalar (.int 5)), (.text "parse_workers", .scalar (.int 2))]),
    (.text "log", .mapping [(.text "level", .text "INFO")]), (.text "store", .scalar .null)]

/-- Sets one value beside another, a text for a mapping and a mapping for nothing. -/
def upper : Mapping :=
  [(.text "cache", .list []), (.text "store", .mapping [(.text "synchronous", .text "OFF")]),
    (.text "index", .mapping [(.text "parse_workers", .scalar (.int 3))]), (.text "log", .text "off")]

theorem distinct_lower : (Value.mapping lower).Distinct := by
  refine .mapping (by decide) ?_
  simp only [lower, List.forall_mem_cons]
  refine ⟨.mapping (by decide) ?_, .mapping (by decide) ?_, .scalar _, nofun⟩
  · simp only [List.forall_mem_cons]
    exact ⟨.scalar _, .scalar _, nofun⟩
  · exact List.forall_mem_singleton.2 (.scalar _)

theorem distinct_upper : (Value.mapping upper).Distinct := by
  refine .mapping (by decide) ?_
  simp only [upper, List.forall_mem_cons]
  refine ⟨.list _, .mapping (by decide) ?_, .mapping (by decide) ?_, .scalar _, nofun⟩
  · exact List.forall_mem_singleton.2 (.scalar _)
  · exact List.forall_mem_singleton.2 (.scalar _)

theorem over_lower : (Value.mapping upper).Distinct ∧ (Value.mapping lower).Distinct ∧
    (Mapping.over upper lower).at? [.text "store", .text "synchronous"] = some (.text "OFF") ∧
    (Mapping.over upper lower).at? [.text "index", .text "memory_threshold"] = some (.scalar (.int 5)) ∧
    (Mapping.over upper lower).at? [.text "log", .text "level"] = none ∧
    (Mapping.over upper lower).map (·.1) = [.text "index", .text "log", .text "store", .text "cache"] := by
  obtain ⟨hpaths, hkeys, -⟩ := Mapping.over_by_paths distinct_upper distinct_lower
  refine ⟨distinct_upper, distinct_lower, ?_, ?_, ?_, hkeys⟩
  · exact (hpaths [.text "store", .text "synchronous"] nofun).1 _ rfl rfl
  · refine (hpaths [.text "index", .text "memory_threshold"] nofun).2.1 rfl fun q hq hne v hv => ?_
    -- the whole layer and the section are mappings
    rcases List.prefix_cons_iff.1 hq with rfl | ⟨below, rfl, hbelow⟩
    · cases hv
      rfl
    rcases List.prefix_cons_iff.1 hbelow with rfl | ⟨rest, rfl, hrest⟩
    · cases hv
      rfl
    · exact absurd (by rw [List.prefix_nil.1 hrest]) hne
  · exact (hpaths [.text "log", .text "level"] nofun).2.2.1
      ⟨[.text "log"], ⟨[.text "level"], rfl⟩, by decide, _, rfl, rfl⟩

end Clashing

end Crossref.Config
