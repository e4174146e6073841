import HashBoard.Proofs.Chain.Detected
import HashBoard.Proofs.Sim.Exchanges

/-!
# Detected simulated chips

A fresh simulated chain whose chips have enough cores is detected with every chip active. No chip
ignores a read until it is told to.
-/

namespace HashBoard

open Bus Wire SimulatedChain

theorem SimulatedChain.lasting_alike {s : SimulatedChain} (hwrites : s.failingWrites = 0)
    (hresults : s.results = []) (hreads : ∀ profile ∈ s.profiles, profile.2 = 0) :
    Lasting (Alike s) where
  write frame t h := by
    have hnone : ¬0 < t.failingWrites := by
      rw [h.failingWrites, hwrites]
      exact Nat.lt_irrefl 0
    have hwrite : (Channel.write frame t).2 = { t with writes := frame :: t.writes }.obey frame :=
      congrArg Prod.snd (if_neg hnone)
    have hnoted : Alike s { t with writes := frame :: t.writes } := h.trans ⟨rfl, rfl, rfl, rfl, rfl⟩
    rw [hwrite]
    have hstill : ∀ profile ∈ t.profiles, profile.2 = 0 := by
      rw [h.profiles]
      exact hreads
    exact hnoted.trans (obey_alike (s := { t with writes := frame :: t.writes })
      (h.results.trans hresults) hstill frame)
  read n t h := h.trans ⟨rfl, rfl, rfl, rfl, rfl⟩
  now t h := h

namespace Serving

variable {bus after : Bus SimulatedChain} {α : Type}

/-- While no chip ignores a read, an exchange disturbs nothing, whatever it answers. -/
theorem undisturbed {x : Exchange SimulatedChain α} {answer : Except ExchangeError α}
    {ts : List Transmission} (h : Serving bus)
    (hreads : ∀ profile ∈ bus.channel.profiles, profile.2 = 0)
    (hx : ∀ {I : SimulatedChain → Prop}, Lasting I → Keeps I x)
    (hrun : x.runOn bus = (answer, after)) (hex : Exchanged ts bus after) : Undisturbed bus after :=
  have hlasting := lasting_alike h.failingWrites h.results hreads
  ⟨hex.generation, hex.limits, (hx hlasting).after hrun (.refl _)⟩

end Serving

namespace Detection

variable {bus after : Bus SimulatedChain}

theorem classify_active {g : Generation} {id : UInt8} {register : Register}
    (h : g.brokenCores ≤ register.coreNumber) :
    (classify g id (.ok register)).condition = .active := by
  rw [classify]
  exact (congrArg Chip.condition (if_neg (UInt8.not_lt.2 h))).trans rfl

theorem probeAll_active {first count : Nat} {chips : List Chip} (h : Serving bus)
    (hreads : ∀ profile ∈ bus.channel.profiles, profile.2 = 0)
    (hcores : ∀ profile ∈ bus.channel.profiles, bus.generation.brokenCores ≤ profile.1)
    (hchips : first + count ≤ bus.channel.chips.length) (hlast : first + count < 256)
    (hprobes : (probeAll first count).run bus = (chips, after)) :
    Undisturbed bus after ∧ ∀ chip ∈ chips, chip.condition = .active := by
  induction count generalizing first bus chips with
  | zero =>
    obtain ⟨rfl, rfl⟩ := Prod.mk.inj hprobes
    exact ⟨⟨rfl, rfl, .refl _⟩, List.forall_mem_nil _⟩
  | succ count ih =>
    obtain ⟨chip, middle, rest, hprobe, hothers, rfl⟩ := probeAll_succ hprobes
    obtain ⟨answer, hread, rfl⟩ := probe_eq hprobe
    have hplace : first < bus.channel.chips.length := by omega
    obtain ⟨m, hm⟩ : ∃ m, bus.channel.chips[first]? = some m :=
      ⟨_, List.getElem?_eq_getElem hplace⟩
    have hprofile : m.profile ∈ bus.channel.profiles := List.mem_map_of_mem (List.mem_of_getElem? hm)
    have hid : (UInt8.ofNat (first + 1)).toNat = first + 1 := by
      rw [UInt8.toNat_ofNat']
      omega
    obtain ⟨middle', hanswer, hundisturbed, hsame⟩ :=
      h.fetchRegister_of_reading ((chip?_of_place hid).trans hm) (hreads _ hprofile)
    obtain ⟨rfl, rfl⟩ := Prod.mk.inj (hread.symm.trans hanswer)
    have hmore : first + 1 + count ≤ middle.channel.chips.length := by
      rw [hsame]
      omega
    obtain ⟨hrest, hactive⟩ := ih (hundisturbed.serving h)
      (by rw [hundisturbed.channel.profiles]; exact hreads)
      (by rw [hundisturbed.channel.profiles, hundisturbed.generation]; exact hcores) hmore (by omega)
      hothers
    refine ⟨hundisturbed.trans hrest, ?_⟩
    intro other hother
    rcases List.mem_cons.1 hother with rfl | hother
    · apply classify_active
      rw [coreNumber_registerBlock]
      exact hcores _ hprofile
    · exact hactive other hother

/-- What a successful detection leaves of a chain on which no chip ignores a read. -/
theorem detect_active {settings : DetectionSettings} {found : DetectedChain} (h : Serving bus)
    (hreads : ∀ profile ∈ bus.channel.profiles, profile.2 = 0)
    (hcores : ∀ profile ∈ bus.channel.profiles, bus.generation.brokenCores ≤ profile.1)
    (hfound : detect settings bus = (.ok found, after)) :
    Undisturbed bus after ∧ found.chips.length ≤ after.channel.profiles.length ∧
      ∀ chip ∈ found.chips, chip.condition = .active := by
  obtain ⟨count, bus1, bus2, bus3, bus4, bus5, last, hreset, htest, _, hcount, hclock, hcollect,
    hfix, hsensor, hprobes, _, _⟩ := detect_exchanges hfound
  -- Each exchange disturbs nothing, so the next one finds the chain as the first one did.
  have hnext {α : Type} {x : Exchange SimulatedChain α} {answer : Except ExchangeError α}
      {first second : Bus SimulatedChain} {ts : List Transmission} (hfirst : Undisturbed bus first)
      (hx : ∀ {I : SimulatedChain → Prop}, Lasting I → Keeps I x)
      (hrun : x.runOn first = (answer, second)) (hex : Exchanged ts first second) :
      Undisturbed bus second :=
    hfirst.trans ((hfirst.serving h).undisturbed (by rw [hfirst.channel.profiles]; exact hreads) hx
      hrun hex)
  obtain ⟨_, _, hex1⟩ := acknowledged_exchanged hreset
  obtain ⟨_, _, hex2⟩ := startSelfTest_exchanged htest
  obtain ⟨_, _, hex3⟩ := stored_exchanged hclock
  obtain ⟨_, _, hex4⟩ := acknowledged_exchanged hcollect
  obtain ⟨_, _, hex5⟩ := acknowledged_exchanged hfix
  obtain ⟨_, _, hex6⟩ := stored_exchanged hsensor
  have h1 := hnext ⟨rfl, rfl, .refl _⟩ (fun hI => acknowledged_keeps hI _ _) hreset hex1
  have h2 := hnext h1 (fun hI => startSelfTest_keeps hI _) htest hex2
  have h3 := hnext h2 (fun hI => stored_keeps hI _ _ _ _) hclock hex3
  have h4 := hnext h3 (fun hI => acknowledged_keeps hI _ _) hcollect hex4
  have h5 := hnext h4 (fun hI => acknowledged_keeps hI _ _) hfix hex5
  have h6 := hnext h5 (fun hI => stored_keeps hI _ _ _ _) hsensor hex6
  have hlength {first second : Bus SimulatedChain} (h : Alike first.channel second.channel) :
      second.channel.chips.length = first.channel.chips.length := by
    have hsame := congrArg List.length h.profiles
    rw [profiles, profiles, List.length_map, List.length_map] at hsame
    exact hsame
  have hcounted : count.toNat ≤ last.channel.chips.length := by
    rw [hlength h6.channel, ← hlength h1.channel]
    exact (h1.serving h).startSelfTest_count htest
  have hdriven := driven_le settings.chipLimit count.toNat
  unfold longestChain at hcount
  obtain ⟨hprobed, hactive⟩ := probeAll_active (h6.serving h)
    (by rw [h6.channel.profiles]; exact hreads)
    (by rw [h6.channel.profiles, h6.generation]; exact hcores) (by omega) (by omega) hprobes
  refine ⟨h6.trans hprobed, ?_, hactive⟩
  rw [(probeAll_classified hprobes).1, hprobed.channel.profiles, profiles, List.length_map]
  omega

end Detection

end HashBoard
