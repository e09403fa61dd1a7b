import VectorForge.Server.JsonRequests

/-! Configurations as the server describes them and as it accepts them. -/

namespace VectorForge.JsonCodec
open JsonDepth (withinDepth kMaxJsonDepth)

section Numbers

theorem getUint_unsigned {n : Nat} {max : UInt64} (small : n ≤ max.toNat) :
    getUint (unsigned n) max = some (UInt64.ofNat n) := by
  have below : UInt64.ofNat n ≤ max := by
    rw [UInt64.le_iff_toNat_le, UInt64.toNat_ofNat_of_lt' (Nat.lt_of_le_of_lt small max.toNat_lt)]
    exact small
  exact if_pos below

theorem readParam_unsigned (key : String) (n : UInt32) :
    readParam key (unsigned n.toNat) = .ok (UInt64.ofNat n.toNat) := by
  have small : n.toNat ≤ (0xFFFFFFFF : UInt64).toNat := Nat.le_of_lt_succ n.toNat_lt
  rw [readParam, getUint_unsigned small]

theorem toUInt32_ofNat (n : UInt32) : (UInt64.ofNat n.toNat).toUInt32 = n := by
  refine UInt32.toNat_inj.mp ?_
  rw [UInt64.toNat_toUInt32, UInt64.toNat_ofNat_of_lt' (Nat.lt_trans n.toNat_lt (by decide)),
    Nat.mod_eq_of_lt n.toNat_lt]

end Numbers

section Fields
variable {config : CollectionConfig}

theorem readIndexField_type (t : IndexType) : readIndexField config (ascii "type", .string t.text) =
    .ok { config with index := t } := by
  simp only [readIndexField, if_true, readText, IndexType.parse_text]
  rfl

theorem readIndexField_m (n : UInt32) : readIndexField config (ascii "M", unsigned n.toNat) =
    .ok { config with hnsw := { config.hnsw with M := n } } :=
  ok_bind.mpr ⟨_, readParam_unsigned "M" n, by rw [toUInt32_ofNat]⟩

theorem readIndexField_efConstruction (n : UInt32) :
    readIndexField config (ascii "ef_construction", unsigned n.toNat) =
      .ok { config with hnsw := { config.hnsw with efConstruction := n } } :=
  ok_bind.mpr ⟨_, readParam_unsigned "ef_construction" n, by rw [toUInt32_ofNat]⟩

theorem readIndexField_efSearch (n : UInt32) :
    readIndexField config (ascii "ef_search", unsigned n.toNat) =
      .ok { config with hnsw := { config.hnsw with efSearch := n } } :=
  ok_bind.mpr ⟨_, readParam_unsigned "ef_search" n, by rw [toUInt32_ofNat]⟩

theorem readIndexField_maxLevel {n : UInt8} (small : n.toNat ≤ HnswParams.kMaxLevelCap) :
    readIndexField config (ascii "max_level", unsigned n.toNat) =
      .ok { config with hnsw := { config.hnsw with maxLevel := n } } := by
  have wide := readParam_unsigned "max_level" n.toUInt32
  rw [UInt8.toNat_toUInt32] at wide
  have value : (UInt64.ofNat n.toNat).toNat = n.toNat :=
    UInt64.toNat_ofNat_of_lt' (Nat.lt_trans n.toNat_lt (by decide))
  have back : (UInt64.ofNat n.toNat).toUInt8 = n := by
    refine UInt8.toNat_inj.mp ?_
    rw [UInt64.toNat_toUInt8, value, Nat.mod_eq_of_lt n.toNat_lt]
  refine ok_bind.mpr ⟨_, wide, ?_⟩
  simp only
  rw [value, if_neg (Nat.not_lt.mpr small), back]

theorem readIndexField_seed (n : UInt64) : readIndexField config (ascii "seed", unsigned n.toNat) =
    .ok { config with hnsw := { config.hnsw with seed := n } } := by
  have read : getUint (unsigned n.toNat) 0xFFFFFFFFFFFFFFFF = some n := by
    rw [getUint_unsigned (Nat.le_of_lt_succ n.toNat_lt), UInt64.ofNat_toNat]
  rw [readIndexField, if_neg (by decide), if_neg (by decide), if_neg (by decide), if_neg (by decide),
    if_neg (by decide), if_pos rfl, read]

theorem readIndexField_concurrency (m : Concurrency) :
    readIndexField config (ascii "concurrency", .string m.text) = .ok { config with concurrency := m } := by
  refine ok_bind.mpr ⟨m, ?_, rfl⟩
  rw [readText, Concurrency.parse_text]

end Fields

/-- What a client is told about a configuration. -/
def described (c : CollectionConfig) : CollectionConfig :=
  { c with
    normalize := c.effectiveNormalize
    hnsw := if c.index = .hnsw then c.hnsw else {}
    concurrency := if c.index = .hnsw then c.concurrency else .concurrent }

section Described
variable {c : CollectionConfig}

theorem readIndex_described {doc : Fields} {config : CollectionConfig} {index : Json}
    (there : doc.lookup (ascii "index") = some index)
    (encoded : (encodeConfig c).lookup (ascii "index") = some index) (levels : c.index = .hnsw → c.hnsw.Valid)
    (fresh : config.hnsw = {} ∧ config.concurrency = .concurrent) :
    readIndex doc config = .ok { config with
      index := c.index, hnsw := (described c).hnsw, concurrency := (described c).concurrency } := by
  rw [readIndex, there]
  obtain ⟨dim, metric, normalize, kind, hnsw, concurrency⟩ := c
  obtain rfl : _ = index := Option.some.inj encoded
  cases kind with
  | flat =>
    refine ok_bind.mpr ⟨_, readIndexField_type .flat, ?_⟩
    obtain ⟨dim', metric', normalize', kind', hnsw', concurrency'⟩ := config
    obtain ⟨rfl, rfl⟩ := fresh
    rfl
  | hnsw =>
    exact ok_bind.mpr ⟨_, readIndexField_m hnsw.M, ok_bind.mpr ⟨_, readIndexField_concurrency concurrency,
      ok_bind.mpr ⟨_, readIndexField_efConstruction hnsw.efConstruction,
        ok_bind.mpr ⟨_, readIndexField_efSearch hnsw.efSearch,
        ok_bind.mpr ⟨_, readIndexField_maxLevel (levels rfl).maxLevel,
          ok_bind.mpr ⟨_, readIndexField_seed hnsw.seed,
          ok_bind.mpr ⟨_, readIndexField_type .hnsw, rfl⟩⟩⟩⟩⟩⟩⟩

theorem validate_described (valid : c.validate = .ok ()) : (described c).validate = .ok () := by
  obtain ⟨dim, levels⟩ := CollectionConfig.validate_ok_iff.mp valid
  refine CollectionConfig.validate_ok_iff.mpr ⟨dim, fun graph => ?_⟩
  have graph : c.index = .hnsw := graph
  have same : (described c).hnsw = c.hnsw := if_pos graph
  rw [same]
  exact levels graph

theorem effectiveNormalize_described : (described c).effectiveNormalize = c.effectiveNormalize := by
  change (c.normalize || decide (c.metric = .cosine) || decide (c.metric = .cosine)) =
    (c.normalize || decide (c.metric = .cosine))
  rw [Bool.or_assoc, Bool.or_self]

theorem encodeConfig_described : encodeConfig (described c) = encodeConfig c := by
  have normalize : (described c).effectiveNormalize = c.effectiveNormalize := effectiveNormalize_described
  rw [encodeConfig, normalize]
  obtain ⟨dim, metric, normalize, kind, hnsw, concurrency⟩ := c
  cases kind <;> rfl

end Described

section Create
variable {lib : JsonLibrary} {body : List Byte} {limits : JsonLimits}

/-- The description of a configuration, sent back with a name. -/
theorem decodeCreate_described {c : CollectionConfig} {name : FileName} (valid : c.validate = .ok ())
    (small : c.dim.toNat ≤ limits.maxDim.toNat)
    (named : Catalog.isValidName name = true) (shallow : withinDepth body kMaxJsonDepth = true)
    (parsed : lib.parse body = some (.object (setField (ascii "name") (.string name) (encodeConfig c)))) :
    decodeCreate lib body limits = .ok { name, config := described c } := by
  obtain ⟨⟨positive, most⟩, levels⟩ := CollectionConfig.validate_ok_iff.mp valid
  obtain ⟨index, encoded⟩ : ∃ index, (encodeConfig c).lookup (ascii "index") = some index := ⟨_, rfl⟩
  have known : ∀ field ∈ setField (ascii "name") (.string name) (encodeConfig c),
      field.1 ∈ [ascii "name", ascii "dim", ascii "metric", ascii "normalize", ascii "index"] := by
    have keys : (setField (ascii "name") (.string name) (encodeConfig c)).map Prod.fst =
        [ascii "dim", ascii "index", ascii "metric", ascii "name", ascii "normalize"] := rfl
    intro field member
    have key : field.1 ∈ [ascii "dim", ascii "index", ascii "metric", ascii "name", ascii "normalize"] :=
      keys ▸ List.mem_map_of_mem member
    simp only [List.mem_cons, List.not_mem_nil, or_false] at key ⊢
    tauto
  have value : (UInt64.ofNat c.dim.toNat).toNat = c.dim.toNat :=
    UInt64.toNat_ofNat_of_lt' (Nat.lt_trans c.dim.toNat_lt (by decide))
  have metric (config : CollectionConfig) : readMetric (setField (ascii "name") (.string name) (encodeConfig c))
      config = .ok { config with metric := c.metric } := by
    refine ok_bind.mpr ⟨c.metric, ?_, rfl⟩
    rw [readText, Metric.parse_text]
  have index : readIndex (setField (ascii "name") (.string name) (encodeConfig c))
      { dim := c.dim, metric := c.metric, normalize := c.effectiveNormalize } =
      .ok (described c) := readIndex_described encoded encoded levels ⟨rfl, rfl⟩
  have nameThere : (setField (ascii "name") (.string name) (encodeConfig c)).lookup (ascii "name") =
      some (.string name) := rfl
  have dimThere : (setField (ascii "name") (.string name) (encodeConfig c)).lookup (ascii "dim") =
      some (unsigned c.dim.toNat) := rfl
  have dimRead : getUint (unsigned c.dim.toNat) 0xFFFFFFFF = some (UInt64.ofNat c.dim.toNat) :=
    getUint_unsigned (Nat.le_of_lt_succ c.dim.toNat_lt)
  have some : UInt64.ofNat c.dim.toNat ≠ 0 := fun zero => by
    rw [← UInt64.toNat_inj, value] at zero
    exact absurd zero (Nat.ne_of_gt positive)
  refine ok_bind.mpr ⟨_, parseObject_ok_iff.mpr ⟨shallow, parsed, known⟩, ?_⟩
  rw [nameThere]
  simp only [named, Bool.not_true, Bool.false_eq_true, if_false, dimThere, Option.bind_some, dimRead]
  rw [if_neg some, if_neg (by rw [value]; exact Nat.not_lt.mpr small), toUInt32_ofNat]
  refine ok_bind.mpr ⟨_, metric _, ok_bind.mpr ⟨_, rfl, ok_bind.mpr ⟨_, index, ?_⟩⟩⟩
  rw [validate_described valid]

theorem readMetric_dim {doc : Fields} {config next : CollectionConfig} (run : readMetric doc config = .ok next) :
    next.dim = config.dim := by
  unfold readMetric at run
  split at run
  · cases run
    rfl
  · obtain ⟨_, -, run⟩ := ok_bind.mp run
    cases run
    rfl

theorem readNormalize_dim {doc : Fields} {config next : CollectionConfig}
    (run : readNormalize doc config = .ok next) : next.dim = config.dim := by
  unfold readNormalize at run
  split at run
  · cases run
    rfl
  · cases run
    rfl
  · cases run

theorem readIndexField_dim {field : List Byte × Json} {config next : CollectionConfig}
    (run : readIndexField config field = .ok next) : next.dim = config.dim := by
  have keeps {α : Type} {m : Decoded α} {f : α → CollectionConfig} (run : (do let a ← m; .ok (f a)) = .ok next)
      (same : ∀ a, (f a).dim = config.dim) : next.dim = config.dim := by
    obtain ⟨a, -, run⟩ := ok_bind.mp run
    cases run
    exact same a
  obtain ⟨key, v⟩ := field
  unfold readIndexField at run
  simp only at run
  split at run
  · exact keeps run fun _ => rfl
  split at run
  · exact keeps run fun _ => rfl
  split at run
  · exact keeps run fun _ => rfl
  split at run
  · exact keeps run fun _ => rfl
  split at run
  · obtain ⟨value, -, run⟩ := ok_bind.mp run
    split at run
    · cases run
    · cases run
      rfl
  split at run
  · split at run
    · cases run
    · cases run
      rfl
  split at run
  · exact keeps run fun _ => rfl
  · cases run

theorem readIndex_dim {doc : Fields} {config next : CollectionConfig} (run : readIndex doc config = .ok next) :
    next.dim = config.dim := by
  have fields : ∀ {fields : Fields} {config : CollectionConfig}, fields.foldlM readIndexField config = .ok next →
      next.dim = config.dim := by
    intro fields
    induction fields with
    | nil =>
      intro config run
      cases run
      rfl
    | cons field fields ih =>
      intro config run
      obtain ⟨after, first, run⟩ := ok_bind.mp run
      exact (ih run).trans (readIndexField_dim first)
  unfold readIndex at run
  split at run
  · cases run
    rfl
  · exact fields run
  · cases run

/-- Nothing is accepted that the catalog would refuse for its name or its configuration. -/
theorem of_decodeCreate {request : CreateRequest} (run : decodeCreate lib body limits = .ok request) :
    Catalog.isValidName request.name = true ∧ request.config.validate = .ok () ∧
    request.config.dim.toNat ≤ limits.maxDim.toNat := by
  obtain ⟨doc, -, run⟩ := ok_bind.mp run
  split at run
  next name there =>
    split at run
    · cases run
    next named =>
      rw [Bool.not_eq_true', Bool.not_eq_false] at named
      split at run
      · cases run
      next value dim =>
        split at run
        · cases run
        next some =>
          split at run
          · cases run
          next small =>
            obtain ⟨first, metric, run⟩ := ok_bind.mp run
            obtain ⟨second, normalize, run⟩ := ok_bind.mp run
            obtain ⟨config, index, run⟩ := ok_bind.mp run
            have same : config.dim = value.toUInt32 :=
              (readIndex_dim index).trans ((readNormalize_dim normalize).trans (readMetric_dim metric))
            split at run
            · cases run
            next valid =>
              cases run
              refine ⟨named, valid, ?_⟩
              have least : value.toUInt32.toNat ≤ value.toNat := by
                rw [UInt64.toNat_toUInt32]
                exact Nat.mod_le _ _
              dsimp only
              rw [same]
              omega
  · cases run

end Create

/-- A client that sends back the description of a collection with a name gets a collection that is described the
same way, and no request gets past the decoder that the catalog would refuse for its name or its configuration. -/
theorem create_requests_round_trip (lib : JsonLibrary) (limits : JsonLimits) :
    (∀ c name body, CollectionConfig.validate c = .ok () → c.dim.toNat ≤ limits.maxDim.toNat →
      Catalog.isValidName name = true →
      withinDepth body kMaxJsonDepth = true →
      lib.parse body = some (.object (setField (ascii "name") (.string name) (encodeConfig c))) →
      ∃ config, decodeCreate lib body limits = .ok { name, config } ∧
      encodeConfig config = encodeConfig c ∧ (config = c ↔
        c.normalize = c.effectiveNormalize ∧ (c.index = .flat → c.hnsw = {} ∧ c.concurrency = .concurrent))) ∧
    ∀ body request, decodeCreate lib body limits = .ok request →
      Catalog.isValidName request.name = true ∧ request.config.validate = .ok () ∧
      request.config.dim.toNat ≤ limits.maxDim.toNat := by
  refine ⟨fun c name body valid small named shallow parsed => ?_, fun body request run => of_decodeCreate run⟩
  refine ⟨described c, decodeCreate_described valid small named shallow parsed, encodeConfig_described, ?_⟩
  obtain ⟨dim, metric, normalize, kind, hnsw, concurrency⟩ := c
  cases kind with
  | flat =>
    simp only [described, CollectionConfig.mk.injEq, true_and, reduceCtorEq, if_false, forall_const]
    exact ⟨fun ⟨n, h, c⟩ => ⟨n.symm, h.symm, c.symm⟩, fun ⟨n, h, c⟩ => ⟨n.symm, h.symm, c.symm⟩⟩
  | hnsw =>
    simp only [described, CollectionConfig.mk.injEq, true_and, if_true, and_true, reduceCtorEq, false_implies]
    exact eq_comm

/-- `{"dim":8,"index":{"type":"flat"},"metric":"l2","name":"a","normalize":false}` -/
theorem create_requests_round_trip_flat : ∃ config, decodeCreate
    ⟨fun _ => some (.object (setField (ascii "name") (.string (ascii "a"))
      (encodeConfig { dim := 8, index := .flat }))), fun _ => F32.zero⟩
    (ascii
      "\x7b\"dim\":8,\"index\":\x7b\"type\":\"flat\"\x7d,\"metric\":\"l2\",\"name\":\"a\",\"normalize\":false\x7d")
        {} =
      .ok { name := ascii "a", config } ∧ config = { dim := 8, index := .flat } := by
  obtain ⟨config, run, -, same⟩ := (create_requests_round_trip
    ⟨fun _ => some (.object (setField (ascii "name") (.string (ascii "a"))
      (encodeConfig { dim := 8, index := .flat }))), fun _ => F32.zero⟩ {}).1
    { dim := 8, index := .flat } (ascii "a")
    (ascii
      "\x7b\"dim\":8,\"index\":\x7b\"type\":\"flat\"\x7d,\"metric\":\"l2\",\"name\":\"a\",\"normalize\":false\x7d")
    (by decide) (by decide) (by decide) (by decide +kernel) rfl
  exact ⟨config, run, same.mpr ⟨by decide, fun _ => ⟨rfl, rfl⟩⟩⟩

end VectorForge.JsonCodec
