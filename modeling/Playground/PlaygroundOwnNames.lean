import Mathlib.Data.Finset.Card
import Playground.PlaygroundTeardownFrame

/-! # Names of a session's own

Which sessions share a name. The names keep four bytes of the user's digest and four of the UUID,
and `create` compares neither with the sessions it finds. -/
namespace PlaygroundOwnNames

open HashMaps
open PlaygroundManagerRuns
open PlaygroundSessionManager
open PlaygroundSessions
open PlaygroundTeardownFrame (hashes hashed_inj)

def firstBytes {w : ℕ} (x : BitVec w) : List (BitVec 8) := (List.range 4).map (byteAt x)

def nameBytes (sha256 : String → Digest) (userId : String) (id : Uuid) :
    List (BitVec 8) × List (BitVec 8) :=
  (firstBytes (sha256 userId), firstBytes id)

section Hex

theorem hexChars_nodup : hexChars.Nodup := by decide

theorem hexDigit_inj {a b : ℕ} (ha : a < 16) (hb : b < 16) (h : hexDigit a = hexDigit b) :
    a = b := by
  have hlen : hexChars.length = 16 := by decide
  unfold hexDigit at h
  rw [List.getD_eq_getElem _ _ (by omega), List.getD_eq_getElem _ _ (by omega)] at h
  exact (hexChars_nodup.getElem_inj_iff).mp h

theorem lowerHex_inj : Function.Injective lowerHex := by
  intro b c h
  simp only [lowerHex, List.cons.injEq, and_true] at h
  have hhigh := hexDigit_inj (by omega) (by omega) h.1
  have hlow := hexDigit_inj (by omega) (by omega) h.2
  exact BitVec.eq_of_toNat_eq (by omega)

theorem hexEncode_eq (bytes : List (BitVec 8)) : hexEncode bytes = bytes.flatMap lowerHex := by
  have hpair : ∀ b : BitVec 8,
      [hexDigit (b >>> 4).toNat, hexDigit (b &&& 0x0f).toNat] = lowerHex b := by
    intro b
    have hlow : b.toNat &&& 15 = b.toNat % 16 := Nat.and_two_pow_sub_one_eq_mod b.toNat 4
    simp [lowerHex, Nat.shiftRight_eq_div_pow, hlow]
  unfold hexEncode
  exact congrArg (List.flatMap · bytes) (funext hpair)

theorem flatMap_lowerHex_inj {bytes bytes' : List (BitVec 8)}
    (h : bytes.flatMap lowerHex = bytes'.flatMap lowerHex) : bytes = bytes' := by
  induction bytes generalizing bytes' with
  | nil =>
    cases bytes' with
    | nil => rfl
    | cons => simp [lowerHex] at h
  | cons b rest ih =>
    cases bytes' with
    | nil => simp [lowerHex] at h
    | cons c rest' =>
      rw [List.flatMap_cons, List.flatMap_cons] at h
      obtain ⟨hfirst, hrest⟩ := List.append_inj h rfl
      rw [lowerHex_inj hfirst, ih hrest]

end Hex

variable {sha256 : String → Digest} {userId userId' : String} {id id' : Uuid}

theorem shortUser_eq (sha256 : String → Digest) (userId : String) :
    shortUser sha256 userId = String.ofList ((firstBytes (sha256 userId)).flatMap lowerHex) := by
  rw [← hexEncode_eq]
  rfl

theorem shortSid_eq (id : Uuid) :
    shortSid id = String.ofList ((firstBytes id).flatMap lowerHex) := by
  unfold shortSid firstBytes
  rw [List.flatMap_map]

/-- The two parts of the names are the bytes in hexadecimal, so nothing more is lost. -/
theorem hashes_iff : hashes sha256 userId id = hashes sha256 userId' id' ↔
    nameBytes sha256 userId id = nameBytes sha256 userId' id' := by
  simp only [hashes, nameBytes, Prod.mk.injEq, shortUser_eq, shortSid_eq, String.ofList_inj]
  constructor
  · rintro ⟨huser, hid⟩
    exact ⟨flatMap_lowerHex_inj huser, flatMap_lowerHex_inj hid⟩
  · rintro ⟨huser, hid⟩
    rw [huser, hid]
    exact ⟨rfl, rfl⟩

theorem hashed_iff {lead : String} :
    lead ++ shortUser sha256 userId ++ "_" ++ shortSid id =
        lead ++ shortUser sha256 userId' ++ "_" ++ shortSid id' ↔
      nameBytes sha256 userId id = nameBytes sha256 userId' id' := by
  rw [← hashes_iff]
  refine ⟨fun h => hashed_inj h, fun h => ?_⟩
  obtain ⟨huser, hid⟩ := Prod.mk.inj h
  rw [huser, hid]

theorem deriveNamespace_iff :
    deriveNamespace sha256 userId id = deriveNamespace sha256 userId' id' ↔
      nameBytes sha256 userId id = nameBytes sha256 userId' id' := hashed_iff

theorem deriveShuttle_iff :
    deriveShuttle sha256 userId id = deriveShuttle sha256 userId' id' ↔
      nameBytes sha256 userId id = nameBytes sha256 userId' id' := hashed_iff

section OwnNames

variable {m : SessionManager} {t now : Clock}

/-- No two sessions of the map share a name, and the two snapshots, which the source collects
into sets, have one name for each. -/
structure OwnNames (m : SessionManager) : Prop where
  namespaces : ∀ {id j s t}, m.sessions.lookup id = some s → m.sessions.lookup j = some t →
    id ≠ j → s.namespaceName ≠ t.namespaceName
  shuttles : ∀ {id j s t}, m.sessions.lookup id = some s → m.sessions.lookup j = some t →
    id ≠ j → s.shuttleName ≠ t.shuttleName
  liveNamespaces : m.liveNamespaces.toFinset.card = (values m.sessions).length
  liveShuttles : m.liveShuttles.toFinset.card = (values m.sessions).length

def OwnBytes (sha256 : String → Digest) (m : SessionManager) : Prop :=
  ∀ {id j s t}, m.sessions.lookup id = some s → m.sessions.lookup j = some t → id ≠ j →
    nameBytes sha256 s.userId id ≠ nameBytes sha256 t.userId j

theorem card_values {K V : Type} [DecidableEq K] {m : HashMap K V} {f : V → String}
    (h : ∀ {k l v w}, m.lookup k = some v → m.lookup l = some w → k ≠ l → f v ≠ f w) :
    ((values m).map f).toFinset.card = (values m).length := by
  have hnodup : ((values m).map f).Nodup := by
    unfold values
    rw [List.map_map]
    have hkeys := List.nodupKeys_iff_pairwise.mp m.nodupKeys
    refine List.pairwise_map.mpr (hkeys.imp_of_mem ?_)
    rintro ⟨k, v⟩ ⟨l, w⟩ hv hw hne
    exact h (mem_entries_iff.mp hv) (mem_entries_iff.mp hw) hne
  rw [List.toFinset_card_of_nodup hnodup, List.length_map]

theorem OwnBytes.distinct (h : OwnBytes sha256 m) {f : Session → String}
    {derive : String → Uuid → String}
    (hf : ∀ {id s}, m.sessions.lookup id = some s → f s = derive s.userId id)
    (hderive : ∀ {userId id userId' id'}, derive userId id = derive userId' id' →
      nameBytes sha256 userId id = nameBytes sha256 userId' id') {j : Uuid} {s t : Session}
    (hs : m.sessions.lookup id = some s) (ht : m.sessions.lookup j = some t) (hne : id ≠ j) :
    f s ≠ f t := by
  intro heq
  rw [hf hs, hf ht] at heq
  exact h hs ht hne (hderive heq)

/-- The names in a reachable map are derived, so only the bytes count. -/
theorem ownNames_iff (h : ∀ id s, m.sessions.lookup id = some s → WellFormed sha256 id s) :
    OwnNames m ↔ OwnBytes sha256 m := by
  have hnamespace : ∀ {id s}, m.sessions.lookup id = some s →
      s.namespaceName = deriveNamespace sha256 s.userId id := by
    intro id s hs
    rw [(h id s hs).namespaceName, (h id s hs).id]
  have hshuttle : ∀ {id s}, m.sessions.lookup id = some s →
      s.shuttleName = deriveShuttle sha256 s.userId id := by
    intro id s hs
    rw [(h id s hs).shuttleName, (h id s hs).id]
  constructor
  · intro hown id j s t hs ht hne heq
    apply hown.namespaces hs ht hne
    rw [hnamespace hs, hnamespace ht]
    exact deriveNamespace_iff.mpr heq
  · intro hown
    have hnamespaces : ∀ {id j s t}, m.sessions.lookup id = some s →
        m.sessions.lookup j = some t → id ≠ j → s.namespaceName ≠ t.namespaceName :=
      hown.distinct hnamespace deriveNamespace_iff.mp
    have hshuttles : ∀ {id j s t}, m.sessions.lookup id = some s →
        m.sessions.lookup j = some t → id ≠ j → s.shuttleName ≠ t.shuttleName :=
      hown.distinct hshuttle deriveShuttle_iff.mp
    exact ⟨hnamespaces, hshuttles, card_values hnamespaces, card_values hshuttles⟩

/-- A session that `create` adds has bytes that no other session of the map has. -/
def NewBytes (sha256 : String → Digest) (m : SessionManager) (_ now : Clock) : Event → Prop
  | .op (.create a) => ∀ ttl, m.checkRequest a.scenarioId a.ttlOverride = .ok ttl →
    m.liveHolder now a.userId = none → ∀ id s, m.sessions.lookup id = some s → id ≠ a.id →
      nameBytes sha256 s.userId id ≠ nameBytes sha256 a.userId a.id
  | .op _ => True
  | .restart _ => True

theorem run_owner {o : ManagerOp} {s : Session}
    (h : (o.run sha256 m now).2.sessions.lookup id = some s) :
    (∃ s₀, m.sessions.lookup id = some s₀ ∧ s₀.userId = s.userId) ∨
    ∃ a ttl, o = .create a ∧ a.id = id ∧ a.userId = s.userId ∧
      m.checkRequest a.scenarioId a.ttlOverride = .ok ttl ∧ m.liveHolder now a.userId = none := by
  cases run_origin h with
  | kept hk => exact Or.inl ⟨s, hk, rfl⟩
  | @created a ttl ho hid hc hl => exact Or.inr ⟨a, ttl, ho, hid, rfl, hc, hl⟩
  | updated ho hk hu => exact Or.inl ⟨_, hk, (apply_same _ _ _).userId.symm⟩
  | touched ho hk hu => exact Or.inl ⟨_, hk, rfl⟩

theorem op_ownBytes (h : OwnBytes sha256 m) (o : ManagerOp)
    (hg : NewBytes sha256 m t now (.op o)) : OwnBytes sha256 (o.run sha256 m now).2 := by
  intro id j s r hs hr hne
  rcases run_owner hs with ⟨s₀, hs₀, hu⟩ | ⟨a, ttl, rfl, rfl, hu, hc, hl⟩
  · rcases run_owner hr with ⟨r₀, hr₀, hv⟩ | ⟨a, ttl, rfl, rfl, hv, hc, hl⟩
    · rw [← hu, ← hv]
      exact h hs₀ hr₀ hne
    · rw [← hu, ← hv]
      exact hg ttl hc hl id s₀ hs₀ hne
  · rcases run_owner hr with ⟨r₀, hr₀, hv⟩ | ⟨b, ttl', hb, rfl, hv, _, _⟩
    · rw [← hu, ← hv]
      exact (hg ttl hc hl j r₀ hr₀ (Ne.symm hne)).symm
    · cases hb
      exact absurd rfl hne

/-- The condition is exact: a session created without it shares its names with another one. -/
theorem op_ownBytes_iff (h : OwnBytes sha256 m) (o : ManagerOp) :
    OwnBytes sha256 (o.run sha256 m now).2 ↔ NewBytes sha256 m t now (.op o) := by
  refine ⟨fun hown => ?_, op_ownBytes h o⟩
  cases o with
  | create a =>
    intro ttl hc hl id s hs hne
    have hmap : ((ManagerOp.create a).run sha256 m now).2.sessions = m.sessions.insert a.id
        (Session.new sha256 a.id now a.userId a.tenantId a.scenarioId ttl) := by
      simp only [ManagerOp.run, SessionManager.create, hc, hl]
    have hold : ((ManagerOp.create a).run sha256 m now).2.sessions.lookup id = some s := by
      rw [hmap, AList.lookup_insert_ne hne]
      exact hs
    have hnew : ((ManagerOp.create a).run sha256 m now).2.sessions.lookup a.id =
        some (Session.new sha256 a.id now a.userId a.tenantId a.scenarioId ttl) := by
      rw [hmap, AList.lookup_insert]
    simpa only [Session.new] using hown hold hnew hne
  | get | update | endSession | touchAction | sweepExpired | getUserSession | liveNamespaces
  | liveShuttles => trivial

theorem run_ownBytes (h : ManagerRun sha256 (NewBytes sha256) m t) : OwnBytes sha256 m := by
  induction h with
  | start manifest enabled defaultTtl now =>
    intro id j s t hs
    simp [SessionManager.new] at hs
  | op o now _ _ hg ih => exact op_ownBytes ih o hg
  | restart b now hrun _ hb _ ih =>
    intro id j s r hs hr hne
    obtain ⟨s₀, hs₀, _, rfl⟩ := (boot_lookup hrun.wellFormed hb).mp hs
    obtain ⟨r₀, hr₀, _, rfl⟩ := (boot_lookup hrun.wellFormed hb).mp hr
    have hkept := ih hs₀ hr₀ hne
    exact hkept

theorem own_names (h : ManagerRun sha256 (NewBytes sha256) m t) : OwnNames m :=
  (ownNames_iff h.wellFormed).mpr (run_ownBytes h)

end OwnNames

section Shared

def expiredId : Uuid := 0x7c9e6679742540de944be07fc1f90ae7

def sharedId : Uuid := 0x7c9e66793b3a4f0e9d1c2a5b6c7d8e9f

def otherId : Uuid := 0x16fd2706085b4c1f8e1d3a9b7c5d4e2f

/-- The user's second session, a second after the first one expired and before a sweep. -/
def successor (sha256 : String → Digest) (id : Uuid) : SessionManager :=
  let m := SessionManager.new oneScenario true defaultTtl
  let m := ((createFor expiredId).run sha256 m (atSecond 0)).2
  ((createFor id).run sha256 m (atSecond 301)).2

theorem own_names_successor : OwnNames (successor (fun _ => 0) otherId) := by
  refine own_names (t := atSecond 301) (.op _ _ (.op _ _ (.start oneScenario true defaultTtl
    (atSecond 0)) (by decide) ?_) (by decide) ?_)
  · intro ttl _ _ id s hs
    simp [SessionManager.new] at hs
  · intro ttl _ _ id s hs hne
    obtain ⟨rfl, rfl⟩ | ⟨_, hs⟩ := lookup_insert_iff.mp hs
    · decide
    · simp [SessionManager.new] at hs

def NewIds (m : SessionManager) (_ _ : Clock) : Event → Prop
  | .op (.create a) => m.sessions.lookup a.id = none
  | _ => True

theorem successor_shares_names :
    ¬ ∃ sha256 : String → Digest, ∀ (m : SessionManager) (t : Clock),
      ManagerRun sha256 NewIds m t → OwnNames m := by
  rintro ⟨sha256, h⟩
  have hrun : ManagerRun sha256 NewIds (successor sha256 sharedId) (atSecond 301) :=
    .op _ _ (.op _ _ (.start oneScenario true defaultTtl (atSecond 0)) (by decide) rfl)
      (by decide) rfl
  have hexpired : ∃ s, (successor sha256 sharedId).sessions.lookup expiredId = some s ∧
      s.namespaceName = deriveNamespace sha256 "u1" expiredId := ⟨_, rfl, rfl⟩
  have hshared : ∃ s, (successor sha256 sharedId).sessions.lookup sharedId = some s ∧
      s.namespaceName = deriveNamespace sha256 "u1" sharedId := ⟨_, rfl, rfl⟩
  obtain ⟨s, hs, hns⟩ := hexpired
  obtain ⟨t, ht, hnt⟩ := hshared
  have hdistinct := (h _ _ hrun).namespaces hs ht (by decide)
  rw [hns, hnt] at hdistinct
  exact hdistinct (deriveNamespace_iff.mpr rfl)

end Shared

end PlaygroundOwnNames
