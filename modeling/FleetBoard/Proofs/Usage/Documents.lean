import FleetBoard.Proofs.Fleet.Listing
import FleetBoard.Usage.Snapshot

/-!
# Usage documents and the ways to write them

What is written of a snapshot is read back. Beside what is written there are many other documents of
the same usage: names that are not known, counters left out in place of null, fields in another
order, records as lists of their values, on each level of the document. A record is read by what its
fields hold and by nothing else (`UsageRecord.read_eq`), so all of these are read alike.
-/

namespace FleetBoard

/-- The records of a usage document. -/
inductive UsageRecord where
  | document
  | processors
  | time
  | memory
  deriving DecidableEq, Repr

namespace UsageRecord

/-- The fields in their order. A field holds a record, or it may be null. -/
def fields : UsageRecord → List (String × Option UsageRecord)
  | document =>
      [("cpu_stats", some processors), ("precpu_stats", some processors),
        ("memory_stats", some memory)]
  | processors => [("cpu_usage", some time), ("system_cpu_usage", none), ("online_cpus", none)]
  | time => [("total_usage", none), ("percpu_usage", none)]
  | memory => [("usage", none), ("limit", none), ("stats", none)]

def names (r : UsageRecord) : List String := r.fields.map (·.1)

/-- What is read of a record. -/
abbrev Value : UsageRecord → Type
  | document => UsageSnapshot
  | processors => CpuStats
  | time => CpuUsage
  | memory => MemoryStats

def read : (r : UsageRecord) → Json → Option r.Value
  | document => UsageSnapshot.ofJson?
  | processors => CpuStats.ofJson?
  | time => CpuUsage.ofJson?
  | memory => MemoryStats.ofJson?

def blank : (r : UsageRecord) → r.Value
  | document => {}
  | processors => {}
  | time => {}
  | memory => {}

/-- Two ways to write the same record. -/
inductive Alike : UsageRecord → Json → Json → Prop where
  | refl {r : UsageRecord} (j : Json) : Alike r j j
  | symm {r : UsageRecord} {i j : Json} (alike : Alike r i j) : Alike r j i
  | trans {r : UsageRecord} {i j k : Json} (first : Alike r i j) (second : Alike r j k) :
      Alike r i k
  /-- A field that is not known is added. -/
  | unknown {r : UsageRecord} {key : String} (value : Json) (before after : List (String × Json))
      (other : key ∉ r.names) :
      Alike r (.obj (before ++ after)) (.obj (before ++ (key, value) :: after))
  /-- A missing field is written as null. -/
  | null {r : UsageRecord} {key : String} (before after : List (String × Json))
      (known : (key, none) ∈ r.fields) (missing : key ∉ (before ++ after).map (·.1)) :
      Alike r (.obj (before ++ after)) (.obj (before ++ (key, .null) :: after))
  /-- A missing record is written without fields. -/
  | empty {r inner : UsageRecord} {key : String} (before after : List (String × Json))
      (known : (key, some inner) ∈ r.fields) (missing : key ∉ (before ++ after).map (·.1)) :
      Alike r (.obj (before ++ after)) (.obj (before ++ (key, .obj []) :: after))
  | reordered {r : UsageRecord} {fields others : List (String × Json)} (same : fields.Perm others)
      (distinct : (fields.map (·.1)).Nodup) : Alike r (.obj fields) (.obj others)
  /-- The values of the first fields in their order stand in a list. -/
  | listed {r : UsageRecord} (values : List Json) (fits : values.length ≤ r.names.length) :
      Alike r (.obj (r.names.zip values)) (.arr values)
  /-- A record in a field is written in another way. -/
  | inside {r inner : UsageRecord} {key : String} {value other : Json}
      (before after : List (String × Json)) (known : (key, some inner) ∈ r.fields)
      (alike : Alike inner value other) :
      Alike r (.obj (before ++ (key, value) :: after)) (.obj (before ++ (key, other) :: after))

/-! ### Fields -/

/-- What a field holds that may be null. -/
def given : Option Json → Option Json
  | some .null => none
  | held => held

/-- Do the contents of a field read alike? -/
def SameField : Option UsageRecord → Option Json → Option Json → Prop
  | none, a, b => given a = given b
  | some inner, a, b =>
      Json.default? inner.blank inner.read a = Json.default? inner.blank inner.read b

theorem SameField.refl (kind : Option UsageRecord) (a : Option Json) : SameField kind a a := by
  cases kind <;> rfl

theorem nullable?_congr {α : Type} (read : Json → Option α) {a b : Option Json}
    (same : given a = given b) :
    Json.nullable? read a = Json.nullable? read b := by
  have through (held : Option Json) : Json.nullable? read held =
      Json.nullable? read (given held) := by
    fun_cases given held <;> rfl
  rw [through a, through b, same]

theorem names_nodup (r : UsageRecord) : r.names.Nodup := by
  cases r <;> decide

/-- A name stands for one field. -/
theorem kind_unique {r : UsageRecord} {key : String} {kind other : Option UsageRecord}
    (known : (key, kind) ∈ r.fields) (known' : (key, other) ∈ r.fields) : kind = other :=
  (Prod.mk.inj (List.inj_on_of_nodup_map r.names_nodup known known' rfl)).2

/-- A record is read by what its fields hold. -/
theorem read_eq {r : UsageRecord} {i j : Json} {f g : String → Option Json}
    (one : i.record? r.names = some f) (other : j.record? r.names = some g)
    (same : ∀ e ∈ r.fields, SameField e.2 (f e.1) (g e.1)) :
    r.read i = r.read j := by
  cases r with
  | document =>
      have cpu : Json.default? {} CpuStats.ofJson? (f "cpu_stats") =
          Json.default? {} CpuStats.ofJson? (g "cpu_stats") :=
        same (_, some processors) (.head _)
      have previous : Json.default? {} CpuStats.ofJson? (f "precpu_stats") =
          Json.default? {} CpuStats.ofJson? (g "precpu_stats") :=
        same (_, some processors) (.tail _ (.head _))
      have memory : Json.default? {} MemoryStats.ofJson? (f "memory_stats") =
          Json.default? {} MemoryStats.ofJson? (g "memory_stats") :=
        same (_, some memory) (.tail _ (.tail _ (.head _)))
      change i.record? UsageSnapshot.names = _ at one
      change j.record? UsageSnapshot.names = _ at other
      simp only [read, UsageSnapshot.ofJson?, one, other, Option.bind_eq_bind, Option.bind_some,
        cpu, previous, memory]
  | processors =>
      have usage : Json.default? {} CpuUsage.ofJson? (f "cpu_usage") =
          Json.default? {} CpuUsage.ofJson? (g "cpu_usage") :=
        same (_, some time) (.head _)
      have system :=
        nullable?_congr Json.word? (same ("system_cpu_usage", none) (.tail _ (.head _)))
      have online :=
        nullable?_congr Json.word? (same ("online_cpus", none) (.tail _ (.tail _ (.head _))))
      change i.record? CpuStats.names = _ at one
      change j.record? CpuStats.names = _ at other
      simp only [read, CpuStats.ofJson?, one, other, Option.bind_eq_bind, Option.bind_some, usage,
        system, online]
  | time =>
      have total := nullable?_congr Json.word? (same ("total_usage", none) (.head _))
      have perCpu := nullable?_congr Json.words? (same ("percpu_usage", none) (.tail _ (.head _)))
      change i.record? CpuUsage.names = _ at one
      change j.record? CpuUsage.names = _ at other
      simp only [read, CpuUsage.ofJson?, one, other, Option.bind_eq_bind, Option.bind_some, total,
        perCpu]
  | memory =>
      have usage := nullable?_congr Json.word? (same ("usage", none) (.head _))
      have limit := nullable?_congr Json.word? (same ("limit", none) (.tail _ (.head _)))
      have stats :=
        nullable?_congr Json.object? (same ("stats", none) (.tail _ (.tail _ (.head _))))
      change i.record? MemoryStats.names = _ at one
      change j.record? MemoryStats.names = _ at other
      simp only [read, MemoryStats.ofJson?, one, other, Option.bind_eq_bind, Option.bind_some,
        usage, limit, stats]

/-! ### Looking fields up -/

section Lookup

variable {key name : String} {value : Json} {before after fields others : List (String × Json)}

theorem lookup_eq (name : String) (fields : List (String × Json)) :
    Json.lookup name fields = fields.lookup name := by
  induction fields with
  | nil => rfl
  | cons field fields ih =>
      obtain ⟨key, value⟩ := field
      rw [Json.lookup, List.lookup_cons, ih]
      by_cases same : key = name
      · simp [same]
      · simp [same, beq_eq_false_iff_ne.mpr (Ne.symm same)]

theorem lookup_ne (different : name ≠ key) :
    Json.lookup name (before ++ (key, value) :: after) = Json.lookup name (before ++ after) := by
  rw [lookup_eq, lookup_eq, List.lookup_append, List.lookup_append, List.lookup_cons,
    beq_eq_false_iff_ne.mpr different]

theorem lookup_self (value : Json) (before after : List (String × Json)) :
    Json.lookup key (before ++ (key, value) :: after) =
      (Json.lookup key before).or (some value) := by
  rw [lookup_eq, lookup_eq, List.lookup_append, List.lookup_cons_self]

theorem lookup_of_missing (missing : key ∉ fields.map (·.1)) : Json.lookup key fields = none := by
  rw [lookup_eq, List.lookup_eq_none_iff]
  intro e inside
  rw [bne_iff_ne]
  rintro rfl
  exact missing (List.mem_map_of_mem inside)

theorem lookup_inserted (missing : key ∉ (before ++ after).map (·.1)) (value : Json) :
    Json.lookup key (before ++ (key, value) :: after) = some value := by
  rw [List.map_append, List.mem_append, not_or] at missing
  rw [lookup_self, lookup_of_missing missing.1, Option.none_or]

theorem lookup_of_perm (same : fields.Perm others) (distinct : (fields.map (·.1)).Nodup) :
    Json.lookup name fields = Json.lookup name others := by
  have held {l : List (String × Json)} (once : (l.map (·.1)).Nodup) (value : Json) :
      l.lookup name = some value ↔ (name, value) ∈ l := by
    constructor
    · intro found
      obtain ⟨before, after, rfl, -⟩ := List.lookup_eq_some_iff.mp found
      exact List.mem_append_right _ List.mem_cons_self
    · exact Listing.Collects.lookup_of_mem once
  rw [lookup_eq, lookup_eq]
  refine Option.ext fun value => ?_
  rw [held distinct, held ((same.map _).nodup_iff.mp distinct), same.mem_iff]

end Lookup

variable {r : UsageRecord} {kind : Option UsageRecord} {key : String}
    {fields others : List (String × Json)}

/-- Two objects that differ in one field only. -/
theorem read_eq_of_field (known : (key, kind) ∈ r.fields)
    (elsewhere : ∀ name, name ≠ key → Json.lookup name fields = Json.lookup name others)
    (here : SameField kind (Json.lookup key fields) (Json.lookup key others)) :
    r.read (.obj fields) = r.read (.obj others) := by
  refine read_eq rfl rfl ?_
  rintro ⟨name, other⟩ inside
  by_cases same : name = key
  · subst same
    rwa [kind_unique inside known]
  · rw [elsewhere name same]
    exact .refl _ _

theorem read_empty (r : UsageRecord) : r.read (.obj []) = some r.blank := by
  cases r <;> rfl

theorem Alike.read_eq {i j : Json} (alike : Alike r i j) : r.read i = r.read j := by
  induction alike with
  | refl => rfl
  | symm _ ih => exact ih.symm
  | trans _ _ first second => exact first.trans second
  | @unknown r key value before after other =>
      refine UsageRecord.read_eq rfl rfl ?_
      intro e inside
      have different : e.1 ≠ key := by
        rintro rfl
        exact other (List.mem_map_of_mem inside)
      rw [lookup_ne different]
      exact .refl _ _
  | null before after known missing =>
      refine read_eq_of_field known (fun name different => (lookup_ne different).symm) ?_
      rw [lookup_of_missing missing, lookup_inserted missing]
      rfl
  | empty before after known missing =>
      refine read_eq_of_field known (fun name different => (lookup_ne different).symm) ?_
      rw [lookup_of_missing missing, lookup_inserted missing]
      exact (read_empty _).symm
  | reordered same distinct =>
      refine UsageRecord.read_eq rfl rfl ?_
      intro e _
      rw [lookup_of_perm same distinct]
      exact .refl _ _
  | listed values fits =>
      refine UsageRecord.read_eq rfl (if_pos fits) ?_
      intro e _
      rw [lookup_eq]
      exact .refl _ _
  | @inside r inner key value other before after known alike ih =>
      refine read_eq_of_field known
        (fun name different => (lookup_ne different).trans (lookup_ne different).symm) ?_
      rw [lookup_self, lookup_self]
      cases Json.lookup key before with
      | some earlier => exact .refl _ _
      | none => exact ih

end UsageRecord

/-! ### What is written is read back -/

theorem Json.word?_toNat (n : UInt64) : Json.word? (.int n.toNat) = some n := by
  have fits : (0 : Int) ≤ n.toNat ∧ (n.toNat : Int) ≤ Decimal.maxWord := by
    have := n.toNat_lt
    rw [Decimal.maxWord, UInt64.size]
    omega
  rw [word?, if_pos fits, Int.toNat_natCast, Nat.toUInt64_eq, UInt64.ofNat_toNat]

theorem Json.nullable?_null {α : Type} (read : Json → Option α) :
    Json.nullable? read (some .null) = some none :=
  rfl

theorem Json.nullable?_object (fields : List (String × Json)) :
    Json.nullable? Json.object? (some (.obj fields)) = some (some fields) := rfl

theorem Json.nullable?_ofWord (counter : Option UInt64) :
    Json.nullable? Json.word? (some (.ofWord counter)) = some counter := by
  cases counter with
  | none => rfl
  | some n =>
      change (Json.word? (.int n.toNat)).map some = _
      rw [word?_toNat, Option.map_some]

theorem Json.nullable?_words (counters : List UInt64) :
    Json.nullable? Json.words? (some (.arr (counters.map fun n => .int n.toNat))) =
      some (some counters) := by
  have read : Json.words? (.arr (counters.map fun n => .int n.toNat)) = some counters := by
    rw [words?]
    induction counters with
    | nil => rfl
    | cons n counters ih => simp [word?_toNat, ih]
  exact congrArg (Option.map some) read

-- in each proof the record is opened first, so that only fields with given names are looked up

theorem CpuUsage.ofJson?_toJson (u : CpuUsage) : CpuUsage.ofJson? u.toJson = some u := by
  have field : u.toJson.record? names = some fun name => Json.lookup name _ := rfl
  rw [ofJson?, field, Option.bind_eq_bind, Option.bind_some]
  obtain ⟨total, _ | counters⟩ := u
  · simp [Json.lookup, Json.nullable?_ofWord, Json.nullable?_null]
  · simp [Json.lookup, Json.nullable?_ofWord, Json.nullable?_words]

theorem CpuStats.ofJson?_toJson (s : CpuStats) : CpuStats.ofJson? s.toJson = some s := by
  have field : s.toJson.record? names = some fun name => Json.lookup name _ := rfl
  rw [ofJson?, field, Option.bind_eq_bind, Option.bind_some]
  simp [Json.lookup, Json.nullable?_ofWord, Json.default?, CpuUsage.ofJson?_toJson]

theorem MemoryStats.ofJson?_toJson (m : MemoryStats) : MemoryStats.ofJson? m.toJson = some m := by
  have field : m.toJson.record? names = some fun name => Json.lookup name _ := rfl
  rw [ofJson?, field, Option.bind_eq_bind, Option.bind_some]
  obtain ⟨usage, limit, _ | stats⟩ := m
  · simp [Json.lookup, Json.nullable?_ofWord, Json.nullable?_null]
  · simp [Json.lookup, Json.nullable?_ofWord, Json.nullable?_object]

theorem UsageSnapshot.ofJson?_toJson (s : UsageSnapshot) :
    UsageSnapshot.ofJson? s.toJson = some s := by
  have field : s.toJson.record? names = some fun name => Json.lookup name _ := rfl
  rw [ofJson?, field, Option.bind_eq_bind, Option.bind_some]
  simp [Json.lookup, Json.default?, CpuStats.ofJson?_toJson, MemoryStats.ofJson?_toJson]

/-- Every snapshot is read back from what is written of it; so a document that is accepted may be
replaced by what is written of its snapshot. In whichever of its forms a document is written, the
snapshot is the same, and a form is accepted just if the others are. -/
theorem UsageSnapshot.ofJson?_any_form :
    (∀ s : UsageSnapshot, ofJson? s.toJson = some s) ∧
    (∀ d s, ofJson? d = some s → ofJson? s.toJson = ofJson? d) ∧
    ∀ d e, UsageRecord.Alike .document d e → ofJson? d = ofJson? e := by
  refine ⟨ofJson?_toJson, ?_, ?_⟩
  · intro d s read
    rw [ofJson?_toJson, read]
  · intro d e alike
    exact UsageRecord.Alike.read_eq alike

open UsageRecord in
theorem UsageSnapshot.ofJson?_any_form_listed :
    Alike .document
      (.obj [("read", .str "now"),
        ("cpu_stats",
          .obj [("system_cpu_usage", .int 2000), ("cpu_usage", .obj [("total_usage", .int 400)])])])
      (.obj [("cpu_stats", .arr [.arr [.int 400, .null], .int 2000])]) ∧
    UsageSnapshot.ofJson? (.obj [("read", .str "now"),
        ("cpu_stats",
          .obj [("system_cpu_usage", .int 2000),
            ("cpu_usage", .obj [("total_usage", .int 400)])])]) =
      some { cpu := { usage := { total := some 400 }, system := some 2000 } } := by
  have used : Alike .time (.obj [("total_usage", .int 400)]) (.arr [.int 400, .null]) :=
    .trans (.null [("total_usage", .int 400)] [] (by decide) (by decide))
      (.listed [.int 400, .null] (by decide))
  have counters : Alike .processors
      (.obj [("system_cpu_usage", .int 2000), ("cpu_usage", .obj [("total_usage", .int 400)])])
      (.arr [.arr [.int 400, .null], .int 2000]) :=
    .trans (.reordered (.swap _ _ []) (by decide))
      (.trans (.inside [] [("system_cpu_usage", .int 2000)] (by decide) used)
        (.listed [.arr [.int 400, .null], .int 2000] (by decide)))
  have strange : "read" ∉ UsageRecord.document.names := by decide
  have alike := Alike.trans (.symm (.unknown (.str "now") [] [("cpu_stats", _)] strange))
    (.inside [] [] (by decide) counters)
  exact ⟨alike, (UsageSnapshot.ofJson?_any_form.2.2 _ _ alike).trans rfl⟩

end FleetBoard
