import MMRelay.Schema.Initialize

/-!
# The migration preserves the message map

Whatever combination of tables a crash or an older version left, the migration ends with the live
table alone; every event keeps the message of one table that held it, the live one if it did.

* `Row.content`, `MessageMap.Records`, `Db.Records`: the message of an event, with its id as text;
* `Merged`, `merged_insertOrIgnore`: a statement keeps the rows of its target and adds the other
  events of its source;
* `Preserves`: no message of the live table is lost, none is made up, every event stays;
* `preserves_ensureMeshnet`, `recoverStaleTemp_spec`, `mergeAll_spec`, `rebuild_spec`;
* **`initialize_spec`**, `initialize_again`, **`initialize_preserves`**.
-/

namespace MMRelay.Schema

open Sqlite MMRelay.Schema.MessageMap

/-- The message of a row, its id as text. -/
def Row.content (r : Row) : Row := { r with meshtasticId := r.meshtasticId.castText }

/-- The table has a row of the event, with this content. -/
def MessageMap.Records (t : MessageMap) (e : String) (c : Row) : Prop :=
  ∃ r, (some e, r) ∈ t.table.rows ∧ r.content = c

/-- The table has a row of the event. -/
def MessageMap.Holds (t : MessageMap) (e : String) : Prop := t.table.hasKey e = true

instance (t : MessageMap) (e : String) : Decidable (t.Holds e) :=
  inferInstanceAs (Decidable (t.table.hasKey e = true))

def Db.Records (db : Db) (name : TableName) (e : String) (c : Row) : Prop :=
  ∃ t, db name = some t ∧ t.Records e c

theorem MessageMap.holds_iff {t : MessageMap} {e : String} : t.Holds e ↔ ∃ c, t.Records e c := by
  unfold MessageMap.Holds MessageMap.Records
  rw [Table.hasKey_iff]
  constructor
  · rintro ⟨r, hr⟩
    exact ⟨r.content, r, hr, rfl⟩
  · rintro ⟨_, r, hr, -⟩
    exact ⟨r, hr⟩

theorem MessageMap.records_unique {t : MessageMap} {e : String} {c c' : Row} (h : t.Records e c)
    (h' : t.Records e c') : c = c' := by
  obtain ⟨r, hr, rfl⟩ := h
  obtain ⟨r', hr', rfl⟩ := h'
  have := t.table.row_unique hr hr' (Option.some_ne_none e) rfl
  rw [Prod.mk.injEq] at this
  rw [this.2]

/-! ## One statement -/

/-- `t` has the rows of `d` and the other events of `s`. -/
structure Merged (d : MessageMap) (s : Option MessageMap) (t : MessageMap) : Prop where
  idType : t.idType = d.idType
  hasMeshnet : t.hasMeshnet = d.hasMeshnet
  records : ∀ e c, t.Records e c ↔ d.Records e c ∨ (¬ d.Holds e ∧ ∃ s', s = some s' ∧ s'.Records e c)

theorem Merged.refl (d : MessageMap) : Merged d none d where
  idType := rfl
  hasMeshnet := rfl
  records e c := by simp

theorem Merged.covers {d t s : MessageMap} (h : Merged d (some s) t) {e : String} {c : Row}
    (hs : s.Records e c) : ∃ c', t.Records e c' := by
  by_cases hd : d.Holds e
  · obtain ⟨c', hc'⟩ := holds_iff.mp hd
    exact ⟨c', (h.records e c').mpr (Or.inl hc')⟩
  · exact ⟨c, (h.records e c).mpr (Or.inr ⟨hd, s, rfl, hs⟩)⟩

/-- **One statement.** It keeps the rows of its target and adds the other events of its source, as
long as the target keeps the texts of their ids. -/
theorem merged_insertOrIgnore {d s : MessageMap} {cast : Bool} {meshnet : Meshnet}
    (hvalid : meshnet.valid d s = true) (hmesh : meshnet = .column ∨ s.hasMeshnet = false)
    (hkeep : ∀ r ∈ s.table.rows, (select d.idType cast meshnet r.2).meshtasticId.castText =
      r.2.meshtasticId.castText) :
    ∃ t, d.insertOrIgnore s cast meshnet = some t ∧ Merged d (some s) t := by
  unfold MessageMap.insertOrIgnore
  rw [dif_pos hvalid]
  refine ⟨_, rfl, rfl, rfl, fun e c => ?_⟩
  have hcontent : ∀ r ∈ s.table.rows, (select d.idType cast meshnet r.2).content = r.2.content := by
    intro r hr
    have hid := hkeep r hr
    have hnet : (select d.idType cast meshnet r.2).meshtasticMeshnet = r.2.meshtasticMeshnet := by
      unfold select
      rcases hmesh with rfl | hnone
      · rfl
      · simp [s.meshnet_none hnone r hr]
    unfold Row.content
    rw [hid, hnet]
    rfl
  simp only [MessageMap.Records, Table.mem_merge, Option.some.injEq, exists_eq_left']
  constructor
  · rintro ⟨r, hr | ⟨v, hv, rfl, hfree⟩, rfl⟩
    · exact Or.inl ⟨r, hr, rfl⟩
    · refine Or.inr ⟨?_, v, hv, (hcontent _ hv).symm⟩
      rw [MessageMap.Holds, hfree e rfl]
      exact Bool.false_ne_true
  · rintro (⟨r, hr, rfl⟩ | ⟨hfree, v, hv, rfl⟩)
    · exact ⟨r, Or.inl hr, rfl⟩
    · refine ⟨_, Or.inr ⟨v, hv, rfl, fun k hk => ?_⟩, hcontent _ hv⟩
      rw [← hk]
      exact Bool.not_eq_true _ ▸ hfree

theorem affinity_of_isText {t : MessageMap} (h : t.isText = true) : affinity t.idType = .text := by
  have hup : t.idType.toUpper = "TEXT" := of_decide_eq_true h
  unfold affinity
  rw [hup]
  simp only
  rw [if_neg (by decide), if_pos (by decide)]

theorem merged_text {d s : MessageMap} (cast : Bool) (ht : d.isText = true)
    (hd : d.hasMeshnet = true) :
    ∃ t, d.insertOrIgnore s cast (if s.hasMeshnet then .column else .null) = some t ∧
      Merged d (some s) t := by
  refine merged_insertOrIgnore ?_ ?_ ?_
  · cases hs : s.hasMeshnet <;> simp [Meshnet.valid, hd, hs]
  · cases hs : s.hasMeshnet <;> simp
  · intro r _
    unfold select
    rw [affinity_of_isText ht]
    cases cast <;> simp

theorem Merged.isText {d t : MessageMap} {s : Option MessageMap} (h : Merged d s t)
    (hd : d.isText = true) : t.isText = true := by
  unfold MessageMap.isText at hd ⊢
  rw [h.idType]
  exact hd

/-! ## Preservation -/

/-- The live table keeps what it records, nothing is made up, and every event stays in some table. -/
structure Preserves (db db' : Db) : Prop where
  live : ∀ e c, db.Records .messageMap e c → db'.Records .messageMap e c
  source : ∀ name e c, db'.Records name e c → ∃ name', db.Records name' e c
  covered : ∀ name e c, db.Records name e c → ∃ name' c', db'.Records name' e c'

namespace Preserves

variable {db db' : Db}

theorem refl (db : Db) : Preserves db db where
  live _ _ h := h
  source name _ _ h := ⟨name, h⟩
  covered name _ c h := ⟨name, c, h⟩

theorem trans {db'' : Db} (h : Preserves db db') (h' : Preserves db' db'') : Preserves db db'' where
  live e c hs := h'.live e c (h.live e c hs)
  source name e c hs := by
    obtain ⟨name', hs'⟩ := h'.source name e c hs
    exact h.source name' e c hs'
  covered name e c hs := by
    obtain ⟨name', c', hs'⟩ := h.covered name e c hs
    exact h'.covered name' e c' hs'

theorem of_records_iff (h : ∀ name e c, db'.Records name e c ↔ db.Records name e c) : Preserves db db' where
  live e c hs := (h _ e c).mpr hs
  source name e c hs := ⟨name, (h name e c).mp hs⟩
  covered name e c hs := ⟨name, c, (h name e c).mpr hs⟩

end Preserves

theorem Db.records_update {db : Db} {name name' : TableName} {t : Option MessageMap} {e : String}
    {c : Row} : Db.Records (Function.update db name t) name' e c ↔
      if name' = name then ∃ t', t = some t' ∧ t'.Records e c else db.Records name' e c := by
  unfold Db.Records
  by_cases h : name' = name
  · rw [if_pos h, h, Function.update_self]
  · rw [if_neg h, Function.update_of_ne h]

theorem preserves_merge {db : Db} {dst src : TableName} {d s t : MessageMap} (hne : dst ≠ src)
    (hsrc : src ≠ .messageMap) (hd : db dst = some d) (hs : db src = some s)
    (h : Merged d (some s) t) :
    Preserves db (Db.drop (Function.update db dst (some t)) src) := by
  have hrec : ∀ name e c, (Db.drop (Function.update db dst (some t)) src).Records name e c ↔
      name ≠ src ∧ if name = dst then t.Records e c else db.Records name e c := by
    intro name e c
    unfold Db.drop
    rw [Db.records_update, Db.records_update]
    by_cases hname : name = src
    · simp [hname]
    · simp [hname]
  have hold : ∀ e c, d.Records e c → t.Records e c := fun e c hc => (h.records e c).mpr (Or.inl hc)
  constructor
  · intro e c hc
    refine (hrec _ _ _).mpr ⟨hsrc.symm, ?_⟩
    by_cases hdst : TableName.messageMap = dst
    · rw [if_pos hdst]
      obtain ⟨d', hd', hc⟩ := hc
      rw [hdst, hd, Option.some.injEq] at hd'
      exact hold e c (hd' ▸ hc)
    · rw [if_neg hdst]
      exact hc
  · intro name e c hc
    obtain ⟨-, hc⟩ := (hrec _ _ _).mp hc
    by_cases hdst : name = dst
    · rw [if_pos hdst] at hc
      rcases (h.records e c).mp hc with hc | ⟨-, s', hs', hc⟩
      · exact ⟨dst, d, hd, hc⟩
      · exact ⟨src, s, hs, Option.some.inj hs' ▸ hc⟩
    · rw [if_neg hdst] at hc
      exact ⟨name, hc⟩
  · rintro name e c ⟨t', ht', hc⟩
    by_cases hdst : name = dst
    · rw [hdst, hd, Option.some.injEq] at ht'
      exact ⟨dst, c, (hrec _ _ _).mpr ⟨hne, by rw [if_pos rfl]; exact hold e c (ht' ▸ hc)⟩⟩
    · by_cases hname : name = src
      · rw [hname, hs, Option.some.injEq] at ht'
        obtain ⟨c', hc'⟩ := h.covers (ht' ▸ hc)
        exact ⟨dst, c', (hrec _ _ _).mpr ⟨hne, by rw [if_pos rfl]; exact hc'⟩⟩
      · exact ⟨name, c, (hrec _ _ _).mpr ⟨hname, by rw [if_neg hdst]; exact ⟨t', ht', hc⟩⟩⟩

theorem preserves_rename {db : Db} {src dst : TableName} {t : MessageMap}
    (hsrc : src ≠ .messageMap) (hdst : dst ≠ .messageMap) (ht : db src = some t)
    (hfree : db dst = none) :
    Preserves db (Function.update (Function.update db src none) dst (some t)) := by
  have hrec : ∀ name e c,
      Db.Records (Function.update (Function.update db src none) dst (some t)) name e c ↔
      if name = dst then t.Records e c else name ≠ src ∧ db.Records name e c := by
    intro name e c
    rw [Db.records_update, Db.records_update]
    by_cases hname : name = dst
    · simp [hname]
    · by_cases hname' : name = src <;> simp [hname, hname']
  constructor
  · intro e c hc
    exact (hrec _ _ _).mpr (by rw [if_neg hdst.symm]; exact ⟨hsrc.symm, hc⟩)
  · intro name e c hc
    have hc := (hrec _ _ _).mp hc
    by_cases hname : name = dst
    · rw [if_pos hname] at hc
      exact ⟨src, t, ht, hc⟩
    · rw [if_neg hname] at hc
      exact ⟨name, hc.2⟩
  · rintro name e c ⟨t', ht', hc⟩
    by_cases hname : name = src
    · rw [hname, ht, Option.some.injEq] at ht'
      exact ⟨dst, c, (hrec _ _ _).mpr (by rw [if_pos rfl]; exact ht' ▸ hc)⟩
    · refine ⟨name, c, (hrec _ _ _).mpr ?_⟩
      have hname' : name ≠ dst := by
        rintro rfl
        rw [hfree] at ht'
        cases ht'
      rw [if_neg hname']
      exact ⟨hname, t', ht', hc⟩

/-! ## The steps of the migration -/

/-- The table that receives the rows of the stale temporary table while the temporary table
exists. -/
def mergeTarget (db : Db) : Option MessageMap :=
  if db.exists? .staleTemp && db.exists? .oldTemp then
    if db.hasMeshnet .staleTemp && !db.hasMeshnet .oldTemp then db .messageMap else db .oldTemp
  else none

/-- Every id is an integer or its decimal text. -/
def IntegerIds (db : Db) : Prop :=
  ∀ name t, db name = some t → ∀ r ∈ t.table.rows, r.2.meshtasticId.IsInteger

/-- The live table with its meshnet column. -/
def ensured (db : Db) : MessageMap :=
  match db .messageMap with
  | none => MessageMap.fresh
  | some t => if t.hasMeshnet then t else t.addMeshnet

theorem ensureMeshnet_eq (db : Db) :
    ensureMeshnet db = Function.update db .messageMap (some (ensured db)) := by
  unfold ensureMeshnet ensured Db.createTableIfNotExists Db.hasMeshnet
  cases hm : db .messageMap with
  | none => simp [MessageMap.fresh]
  | some t =>
    cases ht : t.hasMeshnet with
    | true => simp [hm, ht]
    | false => simp [hm, ht]

theorem ensured_hasMeshnet (db : Db) : (ensured db).hasMeshnet = true := by
  unfold ensured
  split
  · rfl
  · split_ifs with h
    · exact h
    · rfl

theorem ensured_records {db : Db} {e : String} {c : Row} :
    (ensured db).Records e c ↔ db.Records .messageMap e c := by
  unfold ensured Db.Records
  cases hm : db .messageMap with
  | none => simp [MessageMap.Records, MessageMap.fresh, Table.empty]
  | some t => by_cases ht : t.hasMeshnet <;> simp [ht, MessageMap.Records, MessageMap.addMeshnet]

theorem preserves_ensureMeshnet (db : Db) : Preserves db (ensureMeshnet db) := by
  refine Preserves.of_records_iff fun name e c => ?_
  rw [ensureMeshnet_eq, Db.records_update]
  by_cases h : name = .messageMap
  · rw [if_pos h, h]
    simp [ensured_records]
  · rw [if_neg h]

/-- A statement of the first merge, whose ids are not cast. -/
theorem merged_stale {d s : MessageMap} (meshnet : Meshnet) (hvalid : meshnet.valid d s = true)
    (hmesh : meshnet = .column ∨ s.hasMeshnet = false) (hreal : affinity d.idType ≠ .real)
    (hint : ∀ r ∈ s.table.rows, r.2.meshtasticId.IsInteger) :
    ∃ t, d.insertOrIgnore s false meshnet = some t ∧ Merged d (some s) t :=
  merged_insertOrIgnore hvalid hmesh fun r hr => Affinity.castText_store hreal (hint r hr)

theorem Db.insertOrIgnore_eq {db : Db} {dst src : TableName} {cast : Bool} {meshnet : Meshnet}
    {d s t : MessageMap} (hd : db dst = some d) (hs : db src = some s)
    (h : d.insertOrIgnore s cast meshnet = some t) :
    db.insertOrIgnore dst src cast meshnet = some (Function.update db dst (some t)) := by
  unfold Db.insertOrIgnore
  rw [hd, hs]
  simp [h]

/-- What the recovery of the stale temporary table leaves. -/
structure Recovered (db db' : Db) (live : MessageMap) : Prop where
  preserves : Preserves db db'
  legacy : db' .legacy = db .legacy
  staleTemp : db' .staleTemp = none
  messageMap : ∃ live', db' .messageMap = some live' ∧ live'.idType = live.idType ∧
    live'.hasMeshnet = live.hasMeshnet

theorem recovered_merge {db : Db} {dst : TableName} {d s live t : MessageMap}
    (hdst : dst = .oldTemp ∨ dst = .messageMap) (hd : db dst = some d)
    (hs : db .staleTemp = some s) (hlive : db .messageMap = some live) (h : Merged d (some s) t) :
    Recovered db (Db.drop (Function.update db dst (some t)) .staleTemp) live := by
  have hne : dst ≠ .staleTemp := by rcases hdst with rfl | rfl <;> decide
  refine ⟨preserves_merge hne (by decide) hd hs h, ?_, ?_, ?_⟩
  · rcases hdst with rfl | rfl <;> rfl
  · rfl
  · rcases hdst with rfl | rfl
    · exact ⟨live, hlive, rfl, rfl⟩
    · rw [hlive, Option.some.injEq] at hd
      exact ⟨t, rfl, hd ▸ h.idType, hd ▸ h.hasMeshnet⟩

/-- **The stale temporary table** is recovered without a loss, unless its ids pass through a column
of floating-point numbers. -/
theorem recoverStaleTemp_spec {db : Db} {live : MessageMap} (hlive : db .messageMap = some live)
    (hmesh : live.hasMeshnet = true) (hint : ∀ s, db .staleTemp = some s →
      ∀ r ∈ s.table.rows, r.2.meshtasticId.IsInteger)
    (hreal : ∀ t, mergeTarget db = some t → affinity t.idType ≠ .real) :
    ∃ db', recoverStaleTemp db = some db' ∧ Recovered db db' live := by
  unfold recoverStaleTemp
  cases hs : db .staleTemp with
  | none =>
    refine ⟨db, by simp [Db.exists?, hs], Preserves.refl db, rfl, hs, live, hlive, rfl, rfl⟩
  | some s =>
    cases ht : db .oldTemp with
    | none =>
      refine ⟨Function.update (Function.update db .staleTemp none) .oldTemp (some s),
        by simp [Db.exists?, Db.rename, hs, ht], ?_⟩
      exact ⟨preserves_rename (by decide) (by decide) hs ht, rfl, rfl, live, hlive, rfl, rfl⟩
    | some d =>
      have hstale : db.hasMeshnet .staleTemp = s.hasMeshnet := by simp [Db.hasMeshnet, hs]
      have hold : db.hasMeshnet .oldTemp = d.hasMeshnet := by simp [Db.hasMeshnet, ht]
      have htarget : mergeTarget db =
          if s.hasMeshnet && !d.hasMeshnet then some live else some d := by
        unfold mergeTarget
        rw [hstale, hold, ht, hlive]
        simp [Db.exists?, hs, ht]
      rw [htarget] at hreal
      simp only [Db.exists?, hs, ht, Option.isSome_some, if_true, hstale, hold]
      have hvia : ∀ {dst : TableName} {x t : MessageMap} {meshnet : Meshnet},
          dst = .oldTemp ∨ dst = .messageMap → db dst = some x →
          x.insertOrIgnore s false meshnet = some t → Merged x (some s) t →
          ∃ db', (do let db ← db.insertOrIgnore dst .staleTemp false meshnet
                     pure (db.drop .staleTemp)) = some db' ∧ Recovered db db' live := by
        intro dst x t meshnet hdst hx hins hm
        refine ⟨_, ?_, recovered_merge hdst hx hs hlive hm⟩
        rw [Db.insertOrIgnore_eq hx hs hins]
        rfl
      cases hsm : s.hasMeshnet with
      | true =>
        cases hdm : d.hasMeshnet with
        | true =>
          rw [hsm, hdm] at hreal
          obtain ⟨t, hins, hm⟩ := merged_stale .column (by simp [Meshnet.valid, *])
            (Or.inl rfl) (hreal d rfl) (hint s hs)
          exact hvia (Or.inl rfl) ht hins hm
        | false =>
          rw [hsm, hdm] at hreal
          obtain ⟨t, hins, hm⟩ := merged_stale .column (by simp [Meshnet.valid, *])
            (Or.inl rfl) (hreal live rfl) (hint s hs)
          exact hvia (Or.inr rfl) hlive hins hm
      | false =>
        rw [hsm] at hreal
        obtain ⟨t, hins, hm⟩ := merged_stale (d := d) .omitted rfl (Or.inr hsm)
          (hreal d rfl) (hint s hs)
        cases hdm : d.hasMeshnet <;> exact hvia (Or.inl rfl) ht hins hm

/-- The database with the live table alone. -/
def only (t : MessageMap) : Db := Function.update (fun _ => none) .messageMap (some t)

theorem insertIfExists_spec (db : Db) (src : TableName) (cast : Bool) {live : MessageMap}
    (hlive : db .messageMap = some live) (ht : live.isText = true)
    (hm : live.hasMeshnet = true) :
    ∃ t, insertIfExists db src cast = some (Function.update db .messageMap (some t)) ∧
      Merged live (db src) t := by
  unfold insertIfExists Db.exists?
  cases hs : db src with
  | none =>
    refine ⟨live, ?_, Merged.refl live⟩
    rw [← hlive, Function.update_eq_self]
    rfl
  | some s =>
    obtain ⟨t, hins, hmerged⟩ := merged_text (s := s) cast ht hm
    have hnet : db.meshnetOf src = if s.hasMeshnet then Meshnet.column else .null := by
      simp [Db.meshnetOf, Db.hasMeshnet, hs]
    refine ⟨t, ?_, hmerged⟩
    rw [Option.isSome_some, if_pos rfl, hnet]
    exact Db.insertOrIgnore_eq hlive hs hins

theorem preserves_only {db : Db} {live t₀ t₁ t : MessageMap} {a b : TableName}
    (hlive : db .messageMap = some live) (h₀ : ∀ e c, t₀.Records e c ↔ live.Records e c)
    (h₁ : Merged t₀ (db a) t₁) (h₂ : Merged t₁ (db b) t)
    (hall : ∀ name, db name ≠ none → name = .messageMap ∨ name = a ∨ name = b) :
    Preserves db (only t) := by
  have hrec : ∀ name e c, (only t).Records name e c ↔ name = .messageMap ∧ t.Records e c := by
    intro name e c
    unfold only
    rw [Db.records_update]
    by_cases h : name = .messageMap
    · simp [h]
    · simp [h, Db.Records]
  have hfirst : ∀ e c, t₁.Records e c → t.Records e c :=
    fun e c hc => (h₂.records e c).mpr (Or.inl hc)
  have hkeep : ∀ e c, live.Records e c → t.Records e c :=
    fun e c hc => hfirst e c ((h₁.records e c).mpr (Or.inl ((h₀ e c).mpr hc)))
  constructor
  · rintro e c ⟨live', hlive', hc⟩
    rw [hlive, Option.some.injEq] at hlive'
    exact (hrec _ _ _).mpr ⟨rfl, hkeep e c (hlive' ▸ hc)⟩
  · intro name e c hc
    rcases (h₂.records e c).mp ((hrec _ _ _).mp hc).2 with hc | ⟨-, s, hs, hc⟩
    · rcases (h₁.records e c).mp hc with hc | ⟨-, s, hs, hc⟩
      · exact ⟨_, live, hlive, (h₀ e c).mp hc⟩
      · exact ⟨a, s, hs, hc⟩
    · exact ⟨b, s, hs, hc⟩
  · rintro name e c ⟨s, hs, hc⟩
    have hname := hall name (by rw [hs]; exact Option.some_ne_none s)
    suffices h : ∃ c', t.Records e c' by
      obtain ⟨c', hc'⟩ := h
      exact ⟨_, c', (hrec _ _ _).mpr ⟨rfl, hc'⟩⟩
    rcases hname with rfl | rfl | rfl
    · rw [hlive, Option.some.injEq] at hs
      exact ⟨c, hkeep e c (hs ▸ hc)⟩
    · rw [hs] at h₁
      obtain ⟨c', hc'⟩ := h₁.covers hc
      exact ⟨c', hfirst e c' hc'⟩
    · rw [hs] at h₂
      exact h₂.covers hc

/-- What is left of the migration once the stale temporary table is gone. -/
structure Finished (db : Db) (t : MessageMap) : Prop where
  preserves : Preserves db (only t)
  isText : t.isText = true
  hasMeshnet : t.hasMeshnet = true

theorem name_cases {db : Db} (hstale : db .staleTemp = none) (name : TableName)
    (h : db name ≠ none) : name = .messageMap ∨ name = .oldTemp ∨ name = .legacy := by
  cases name with
  | messageMap => exact Or.inl rfl
  | oldTemp => exact Or.inr (Or.inl rfl)
  | staleTemp => exact absurd hstale h
  | legacy => exact Or.inr (Or.inr rfl)

/-- **Text ids.** The other tables are merged into the live one. -/
theorem mergeAll_spec {db : Db} {live : MessageMap} (hlive : db .messageMap = some live)
    (hm : live.hasMeshnet = true) (hstale : db .staleTemp = none) (ht : live.isText = true) :
    ∃ t, (mergeTemp db).bind mergeLegacy = some (only t) ∧ Finished db t := by
  obtain ⟨t₁, hins₁, h₁⟩ := insertIfExists_spec db .oldTemp true hlive ht hm
  have ht₁ := h₁.isText ht
  have hm₁ : t₁.hasMeshnet = true := h₁.hasMeshnet.trans hm
  obtain ⟨t₂, hins₂, h₂⟩ := insertIfExists_spec
    (Db.drop (Function.update db .messageMap (some t₁)) .oldTemp) .legacy true rfl ht₁ hm₁
  refine ⟨t₂, ?_, preserves_only hlive (fun e c => Iff.rfl) h₁ h₂ (name_cases hstale),
    h₂.isText ht₁, h₂.hasMeshnet.trans hm₁⟩
  unfold mergeTemp mergeLegacy mergeFrom
  simp only [hins₁, hins₂, Option.bind_eq_bind, Option.bind_some, Option.pure_def]
  congr 1
  funext name
  cases name <;> simp [only, Db.drop, hstale]

theorem insert_fresh {live : MessageMap} (hm : live.hasMeshnet = true) :
    ∃ t, MessageMap.fresh.insert live true .column = some t ∧
      Merged MessageMap.fresh (some live) t := by
  have hfree : MessageMap.conflicts MessageMap.fresh live = false := by
    unfold conflicts
    rw [List.any_eq_false]
    intro r _
    cases r.1 <;> simp [Table.hasKey, MessageMap.fresh, Table.empty]
  obtain ⟨t, hins, hmerged⟩ := merged_text (d := MessageMap.fresh) (s := live) true
    (by decide +kernel) rfl
  rw [hm, if_pos rfl] at hins
  refine ⟨t, ?_, hmerged⟩
  unfold MessageMap.insert
  rw [hfree]
  exact hins

theorem Merged.records_fresh {live t : MessageMap} (h : Merged MessageMap.fresh (some live) t)
    (e : String) (c : Row) : t.Records e c ↔ live.Records e c := by
  have hno : ∀ c, ¬ MessageMap.fresh.Records e c := by
    rintro c ⟨r, hr, -⟩
    cases hr
  have hfree : ¬ MessageMap.fresh.Holds e := by
    rw [holds_iff]
    rintro ⟨c, hc⟩
    exact hno c hc
  rw [h.records]
  constructor
  · rintro (hc | ⟨-, s, hs, hc⟩)
    · exact absurd hc (hno c)
    · exact Option.some.inj hs ▸ hc
  · exact fun hc => Or.inr ⟨hfree, live, rfl, hc⟩

/-- The tables after the copy of the live one. -/
def copied (db : Db) (live t : MessageMap) : Db
  | .messageMap => some t
  | .oldTemp => some live
  | .staleTemp => db .oldTemp
  | .legacy => db .legacy

theorem copyLive_eq {db : Db} {live t : MessageMap} (hlive : db .messageMap = some live)
    (hm : live.hasMeshnet = true) (hstale : db .staleTemp = none)
    (hins : MessageMap.fresh.insert live true .column = some t) :
    copyLive db = some (copied db live t) := by
  unfold copyLive
  cases hold : db .oldTemp with
  | none =>
    simp only [Db.exists?, hold, Db.rename, hlive, Db.createTable, Db.insert, Db.meshnetOf,
      Db.hasMeshnet, Option.isSome_none, Bool.false_eq_true, if_false, Option.bind_eq_bind,
      Option.bind_some, ne_eq, reduceCtorEq, not_false_eq_true, Function.update_of_ne,
      Function.update_self, Option.any_some, hm, if_true, hins, Option.pure_def]
    congr 1
    funext name
    cases name <;> simp [copied, hold, hstale]
  | some old =>
    simp only [Db.exists?, hold, Db.rename, Db.drop, hlive, Db.createTable, Db.insert,
      Db.meshnetOf, Db.hasMeshnet, Option.isSome_some, if_true, Option.bind_eq_bind,
      Option.bind_some, ne_eq, reduceCtorEq, not_false_eq_true, Function.update_of_ne,
      Function.update_self, Option.any_some, hm, hins, Option.pure_def]
    congr 1
    funext name
    cases name <;> simp [copied, hold]

/-- **Other ids.** The live table is rebuilt with text ids. -/
theorem rebuild_spec {db : Db} {live : MessageMap} (hlive : db .messageMap = some live)
    (hm : live.hasMeshnet = true) (hstale : db .staleTemp = none) :
    ∃ t, rebuild db = some (only t) ∧ Finished db t := by
  obtain ⟨t₀, hins₀, h₀⟩ := insert_fresh hm
  have ht₀ : t₀.isText = true := h₀.isText (by decide +kernel)
  have hm₀ : t₀.hasMeshnet = true := h₀.hasMeshnet
  obtain ⟨t₁, hins₁, h₁⟩ := insertIfExists_spec (copied db live t₀) .legacy true rfl ht₀ hm₀
  have ht₁ := h₁.isText ht₀
  have hm₁ : t₁.hasMeshnet = true := h₁.hasMeshnet.trans hm₀
  have hall : ∀ name, db name ≠ none → name = .messageMap ∨ name = .legacy ∨ name = .oldTemp :=
    fun name h => (name_cases hstale name h).imp_right Or.symm
  unfold rebuild
  simp only [copyLive_eq hlive hm hstale hins₀, hins₁, Option.bind_eq_bind, Option.bind_some,
    Option.pure_def]
  cases hold : db .oldTemp with
  | none =>
    have h₂ : Merged t₁ (db .oldTemp) t₁ := by
      rw [hold]
      exact Merged.refl t₁
    refine ⟨t₁, ?_, preserves_only hlive h₀.records_fresh h₁ h₂ hall, ht₁, hm₁⟩
    simp only [Db.exists?, hold, Option.isSome_none, Bool.false_eq_true, if_false]
    congr 1
    funext name
    cases name <;> simp [only, Db.drop, copied, hold]
  | some old =>
    obtain ⟨t₂, hins₂, h₂⟩ := insertIfExists_spec
      (Db.drop (Function.update (copied db live t₀) .messageMap (some t₁)) .oldTemp) .staleTemp
      false rfl ht₁ hm₁
    refine ⟨t₂, ?_, preserves_only hlive h₀.records_fresh h₁ h₂ hall, h₂.isText ht₁,
      h₂.hasMeshnet.trans hm₁⟩
    simp only [Db.exists?, hold, Option.isSome_some, if_true, hins₂, Option.bind_some]
    congr 1
    funext name
    cases name <;> simp [only, Db.drop]

/-! ## The migration -/

/-- The table with the index. -/
def withIndex (t : MessageMap) : MessageMap := { t with indexed := true }

theorem createIndex_only (t : MessageMap) :
    createIndex (only t) = only (if t.indexed then t else withIndex t) := by
  unfold createIndex only withIndex
  by_cases h : t.indexed = true
  · simp [h]
  · simp [h]

theorem withIndex_records {t : MessageMap} {e : String} {c : Row} :
    (withIndex t).Records e c ↔ t.Records e c :=
  Iff.rfl

theorem ensureMeshnet_of_ne (db : Db) {name : TableName} (h : name ≠ .messageMap) :
    ensureMeshnet db name = db name := by
  rw [ensureMeshnet_eq, Function.update_of_ne h]

theorem affinity_ensured {db : Db}
    (h : ∀ t, db .messageMap = some t → affinity t.idType ≠ .real) :
    affinity (ensured db).idType ≠ .real := by
  unfold ensured
  split
  · rw [affinity_of_isText (t := MessageMap.fresh) (by decide +kernel)]
    decide
  · next live hlive =>
    have hreal := h live hlive
    split_ifs <;> exact hreal

/-- Adding the meshnet column does not change which column receives the stale rows. -/
theorem mergeTarget_ensureMeshnet {db : Db}
    (h : ∀ t, mergeTarget db = some t → affinity t.idType ≠ .real) :
    ∀ t, mergeTarget (ensureMeshnet db) = some t → affinity t.idType ≠ .real := by
  intro t ht
  unfold mergeTarget Db.exists? Db.hasMeshnet at h ht
  rw [ensureMeshnet_of_ne db (by decide : TableName.staleTemp ≠ .messageMap),
    ensureMeshnet_of_ne db (by decide : TableName.oldTemp ≠ .messageMap)] at ht
  by_cases hboth : ((db .staleTemp).isSome && (db .oldTemp).isSome) = true
  · rw [if_pos hboth] at h ht
    by_cases hnet : ((db .staleTemp).any MessageMap.hasMeshnet &&
        !(db .oldTemp).any MessageMap.hasMeshnet) = true
    · rw [if_pos hnet] at h ht
      rw [ensureMeshnet_eq, Function.update_self, Option.some.injEq] at ht
      rw [← ht]
      exact affinity_ensured h
    · rw [if_neg hnet] at h ht
      exact h t ht
  · rw [if_neg hboth] at ht
    cases ht

/-- **The last phase** works for ids of every type. -/
theorem gatherRows_spec {db : Db} {live : MessageMap} (hlive : db .messageMap = some live)
    (hm : live.hasMeshnet = true) (hstale : db .staleTemp = none) :
    ∃ t, gatherRows live.isText db = some (only t) ∧ Finished db t := by
  unfold gatherRows
  by_cases ht : live.isText = true
  · rw [if_pos ht]
    exact mergeAll_spec hlive hm hstale ht
  · rw [if_neg ht]
    exact rebuild_spec hlive hm hstale

/-- **The migration** ends with the live table alone, with text ids, the meshnet column and the
index, and preserves the messages, unless the ids of the stale temporary table pass through a
column of floating-point numbers. -/
theorem initialize_spec {db : Db} (hint : IntegerIds db)
    (hreal : ∀ t, mergeTarget db = some t → affinity t.idType ≠ .real) :
    ∃ t, initializeDatabase db = some (only t) ∧ Preserves db (only t) ∧ t.isText = true ∧
      t.hasMeshnet = true ∧ t.indexed = true := by
  have hlive : ensureMeshnet db .messageMap = some (ensured db) := by
    rw [ensureMeshnet_eq, Function.update_self]
  have hm := ensured_hasMeshnet db
  have hstale : ∀ s, ensureMeshnet db .staleTemp = some s →
      ∀ r ∈ s.table.rows, r.2.meshtasticId.IsInteger := by
    intro s hs
    rw [ensureMeshnet_of_ne db (by decide)] at hs
    exact hint .staleTemp s hs
  obtain ⟨db₁, hrec, hrecovered⟩ :=
    recoverStaleTemp_spec hlive hm hstale (mergeTarget_ensureMeshnet hreal)
  obtain ⟨live, hlive₁, htype, hmesh⟩ := hrecovered.messageMap
  obtain ⟨t, hdone, hfinished⟩ := gatherRows_spec hlive₁ (hmesh.trans hm) hrecovered.staleTemp
  -- the type of the ids is read before the recovery, which does not change it
  have hsame : (ensureMeshnet db .messageMap).any MessageMap.isText = live.isText := by
    rw [hlive]
    unfold MessageMap.isText
    rw [htype]
    rfl
  refine ⟨if t.indexed then t else withIndex t, ?_, ?_, ?_, ?_, ?_⟩
  · unfold initializeDatabase
    simp only [hsame, hrec, hdone, Option.bind_eq_bind, Option.bind_some, Option.pure_def,
      createIndex_only]
  · refine ((preserves_ensureMeshnet db).trans hrecovered.preserves).trans
      (hfinished.preserves.trans (Preserves.of_records_iff fun name e c => ?_))
    unfold only
    rw [Db.records_update, Db.records_update]
    split_ifs <;> simp [withIndex_records]
  · split_ifs <;> exact hfinished.isText
  · split_ifs <;> exact hfinished.hasMeshnet
  · split_ifs with h
    · exact h
    · rfl

/-- The migration of a migrated table changes nothing. -/
theorem initialize_again {t : MessageMap} (ht : t.isText = true) (hm : t.hasMeshnet = true)
    (hi : t.indexed = true) : initializeDatabase (only t) = some (only t) := by
  have hensure : ensureMeshnet (only t) = only t := by
    rw [ensureMeshnet_eq, Function.update_eq_self_iff]
    simp [ensured, only, hm]
  have hdrop : ∀ name, name ≠ .messageMap → (only t).drop name = only t := by
    intro name hname
    unfold Db.drop
    rw [Function.update_eq_self_iff]
    unfold only
    rw [Function.update_of_ne hname]
  have hrec : recoverStaleTemp (only t) = some (only t) := rfl
  have htemp : mergeTemp (only t) = some (only t) := congrArg some (hdrop .oldTemp (by decide))
  have hlegacy : mergeLegacy (only t) = some (only t) := congrArg some (hdrop .legacy (by decide))
  have htext : (only t .messageMap).any MessageMap.isText = true := ht
  unfold initializeDatabase gatherRows
  simp only [hensure, hrec, htemp, hlegacy, htext, if_true, Option.bind_eq_bind,
    Option.bind_some, Option.pure_def, createIndex_only, hi]

/-- The event has one row, with the message of a table that held it; that is the live table if it
held the event. -/
def EventKept (db : Db) (t : MessageMap) (e : String) : Prop :=
  ∃ r, t.table.rows.filter (fun row => decide (row.1 = some e)) = [(some e, r)] ∧
    (∃ name s, db name = some s ∧ s.Records e r) ∧
    ∀ live, db .messageMap = some live → live.Holds e → live.Records e r

theorem content_of_isText {t : MessageMap} (ht : t.isText = true) {k : Option String} {r : Row}
    (hr : (k, r) ∈ t.table.rows) : r.content = r := by
  have hid := t.stored _ hr
  rw [affinity_of_isText ht] at hid
  unfold Row.content
  have hcast : r.meshtasticId.castText = r.meshtasticId := hid
  rw [hcast]

theorem eventKept_of_preserves {db : Db} {t : MessageMap} {e : String}
    (hp : Preserves db (only t)) (ht : t.isText = true) {name : TableName} {s : MessageMap}
    (hs : db name = some s) (he : s.Holds e) : EventKept db t e := by
  have honly : ∀ name c, (only t).Records name e c → t.Records e c := by
    rintro name c ⟨t', ht', hc⟩
    cases name <;> cases ht'
    exact hc
  obtain ⟨c, hc⟩ := holds_iff.mp he
  obtain ⟨name', c', hc'⟩ := hp.covered name e c ⟨s, hs, hc⟩
  obtain ⟨r, hr, -⟩ := honly name' c' hc'
  have hrec : t.Records e r := ⟨r, hr, content_of_isText ht hr⟩
  refine ⟨r, Table.filter_key_eq hr, hp.source .messageMap e r ⟨t, rfl, hrec⟩, ?_⟩
  intro live hlive hholds
  obtain ⟨c, hc⟩ := holds_iff.mp hholds
  have hkept := honly _ _ (hp.live e c ⟨live, hlive, hc⟩)
  rw [records_unique hrec hkept]
  exact hc

/-- **The message map is preserved.** Whatever tables exist, with whatever columns and messages
with integer ids, no statement fails and the live table is left alone, with text ids and the
meshnet column; every event of any table has one row, with the message of a table that held it and
of the live one if it did; and a second migration changes nothing. The ids of a stale temporary
table must not be merged into a column of floating-point numbers. -/
theorem initialize_preserves (db : Db) (hint : IntegerIds db)
    (hreal : ∀ t, mergeTarget db = some t → affinity t.idType ≠ .real) :
    ∃ t, initializeDatabase db = some (only t) ∧ t.isText = true ∧ t.hasMeshnet = true ∧
      (∀ e, (∃ name s, db name = some s ∧ s.Holds e) → EventKept db t e) ∧
      initializeDatabase (only t) = some (only t) := by
  obtain ⟨t, hdone, hp, ht, hm, hi⟩ := initialize_spec hint hreal
  refine ⟨t, hdone, ht, hm, ?_, initialize_again ht hm hi⟩
  rintro e ⟨name, s, hs, he⟩
  exact eventKept_of_preserves hp ht hs he

/-! ## A crash that left three tables -/

/-- A table without messages or meshnets. -/
def emptyTable (idType : String) : MessageMap :=
  { MessageMap.fresh with
    idType := idType, hasMeshnet := false, stored := fun r hr => by cases hr
    meshnet_none := fun _ r hr => by cases hr }

/-- One message with the id `5`. -/
def oneMessage : MessageMap where
  idType := "INTEGER"
  hasMeshnet := true
  indexed := false
  table := Table.empty.insertOrIgnore "$e" ⟨.int 5, some "!room", some "hi", some "mesh"⟩
  stored r hr := by
    rw [List.mem_singleton.mp hr]
    decide +kernel
  meshnet_none h := by cases h

/-- An empty live table, an empty temporary table and a stale one with a message. -/
def crashed (idType : String) : Db
  | .messageMap => some (emptyTable idType)
  | .oldTemp => some (emptyTable "INTEGER")
  | .staleTemp => some oneMessage
  | .legacy => none

theorem integerIds_crashed (idType : String) : IntegerIds (crashed idType) := by
  intro name t ht r hr
  cases name with
  | messageMap => cases ht; cases hr
  | oldTemp => cases ht; cases hr
  | staleTemp =>
    cases ht
    rw [List.mem_singleton.mp hr]
    trivial
  | legacy => cases ht

/-- A live table with integer ids. -/
theorem initialize_preserves_crashed :
    ∃ t, initializeDatabase (crashed "INTEGER") = some (only t) ∧
      EventKept (crashed "INTEGER") t "$e" := by
  obtain ⟨t, hdone, -, -, hkept, -⟩ := initialize_preserves (crashed "INTEGER")
    (integerIds_crashed _) (fun t ht => by cases ht; decide +kernel)
  exact ⟨t, hdone, hkept "$e" ⟨.staleTemp, oneMessage, rfl, by decide +kernel⟩⟩

/-- A live table whose ids are declared `REAL` turns the id of the message into `5.0`. -/
theorem realId_altered :
    IntegerIds (crashed "REAL") ∧ oneMessage.Holds "$e" ∧
    ∃ db t, initializeDatabase (crashed "REAL") = some db ∧ db .messageMap = some t ∧
      t.table.rows = [(some "$e", ⟨.realText 5, some "!room", some "hi", some "mesh"⟩)] ∧
      ¬ EventKept (crashed "REAL") t "$e" := by
  refine ⟨integerIds_crashed _, by decide +kernel, ?_⟩
  have hrows : ((initializeDatabase (crashed "REAL")).bind fun db => db .messageMap).map
      (fun t => t.table.rows) =
      some [(some "$e", ⟨.realText 5, some "!room", some "hi", some "mesh"⟩)] := by
    decide +kernel
  obtain ⟨t, ht, hrows⟩ := Option.map_eq_some_iff.mp hrows
  obtain ⟨db, hdb, ht⟩ := Option.bind_eq_some_iff.mp ht
  refine ⟨db, t, hdb, ht, hrows, ?_⟩
  rintro ⟨r, hr, ⟨name, s, hs, r', hr', hcontent⟩, -⟩
  rw [hrows] at hr
  have hreal : r.meshtasticId = .realText 5 := by
    rw [List.filter_cons_of_pos (by decide), List.filter_nil, List.cons.injEq, Prod.mk.injEq] at hr
    rw [← hr.1.2]
  -- no table of the start has that id
  rw [← hcontent] at hreal
  cases name with
  | messageMap => cases hs; cases hr'
  | oldTemp => cases hs; cases hr'
  | staleTemp =>
    cases hs
    rw [(Prod.mk.inj (List.mem_singleton.mp hr')).2] at hreal
    cases hreal
  | legacy => cases hs

end MMRelay.Schema
