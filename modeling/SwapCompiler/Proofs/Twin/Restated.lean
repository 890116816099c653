import SwapCompiler.Proofs.Twin.Program
import SwapCompiler.Proofs.WrapCalls

/-!
# What the bytecode does not depend on

A request can be put in other words: under other exchange names, with other quotes of what is
bought, with defaults spelled out or left out.  `Job.Restates` lists what may differ, and
`Job.bytecode_restated` says that none of it reaches the bytecode or the kind of a fault.
-/

namespace SwapCompiler

/-- The same choice, where leaving it open chooses the default. -/
inductive SameChoice {α : Type} (default : α) : Option α → Option α → Prop
  | same (choice : Option α) : SameChoice default choice choice
  | leftOut : SameChoice default (some default) none
  | spelledOut : SameChoice default none (some default)

section

variable {α β : Type} {default : α} {choice other : Option α}

theorem SameChoice.getD_eq (h : SameChoice default choice other) :
    other.getD default = choice.getD default := by
  cases h <;> rfl

/-- A default that holds nothing is as good as none. -/
theorem SameChoice.bind_eq (h : SameChoice default choice other) {f : α → Option β}
    (hdefault : f default = none) : other.bind f = choice.bind f := by
  cases h with
  | same => rfl
  | leftOut => exact hdefault.symm
  | spelledOut => exact hdefault

end

/-- The same adapter, with its defaults spelled out or left out. -/
structure Adapter.Restates (adapter other : Adapter) : Prop where
  target : other.target = adapter.target
  calldata : other.calldata = adapter.calldata
  wrapsNative : other.wrapsNative = adapter.wrapsNative
  paysRecipient : other.paysRecipient = adapter.paysRecipient
  namesDestination : other.namesDestination = adapter.namesDestination
  special : SameChoice .plain adapter.special other.special
  spender : SameChoice adapter.target adapter.spender other.spender
  returnPosition : SameChoice 0 adapter.returnPosition other.returnPosition

theorem Adapter.Restates.twin {adapter other : Adapter} (h : adapter.Restates other)
    (native : Bool) : adapter.Twin native other where
  target := h.target
  calldata := h.calldata
  paysRecipient := h.paysRecipient
  namesDestination := h.namesDestination
  opcode := h.special.getD_eq
  allowee := by
    rw [allowee, allowee, h.target]
    exact h.spender.getD_eq
  returnPosition := h.returnPosition.getD_eq
  wrapsNative := fun _ => h.wrapsNative

/-- Forgets a name. -/
def unnamed (_ : String) : String :=
  ""

namespace Job

/-- The same request in other words.  Names are free, and so are the amounts of the trade as a
whole, as long as something is sold; the amount that a fill buys is free unless a transfer
sends it on. -/
structure Restates (job other : Job) : Prop where
  network : other.network = job.network
  trade : job.trade.Twin unnamed other.trade
  adapters : List.Forall₂ Adapter.Restates job.adapters other.adapters
  amounts : ∀ site ∈ job.layout.sites, ∀ partner ∈ other.layout.sites,
    partner.2.index = site.2.index → job.Transfers site →
      partner.2.fill.destinationAmount = site.2.fill.destinationAmount
  wrapCalls : SameChoice ⟨none, none⟩ job.wrapCalls other.wrapCalls

variable {job other : Job}

theorem Restates.twin (h : job.Restates other) : job.Twin unnamed other where
  network := h.network
  trade := h.trade
  adapterCount := h.adapters.length_eq.symm
  adapters := fun _ _ _ _ hadapter hcounterpart =>
    (rel_of_forall₂ h.adapters hadapter hcounterpart).twin _
  amounts := h.amounts
  calls := fun _ => ⟨h.wrapCalls.bind_eq rfl, h.wrapCalls.bind_eq rfl⟩

/-- What a request leaves open, quotes or calls by name does not leak into its bytecode.  Put in
other words, it compiles to the same bytes, or it fails for the same reason: with a fault of
the same kind, which differs in exchange names at most. -/
theorem bytecode_restated (h : job.Restates other) :
    (∃ data, job.bytecode = .ok data ∧ other.bytecode = .ok data) ∨
      ∃ fault cause, job.bytecode = .error fault ∧ other.bytecode = .error cause ∧
        cause.kind = fault.kind ∧ cause.renamed unnamed = fault.renamed unnamed := by
  rcases EndsAlike.iff_cases.1 h.twin.bytecode_endsAlike with
    hsame | ⟨fault, cause, hfault, hcause, hsame⟩
  · exact .inl hsame
  · have hkind := congrArg Fault.kind hsame
    rw [Fault.kind_renamed, Fault.kind_renamed] at hkind
    exact .inr ⟨fault, cause, hfault, hcause, hkind, hsame⟩

/-- The raw sale under other names and quotes, with all defaults spelled out. -/
def requotedSale : Job :=
  { rawSale with
    trade :=
      { rawSale.trade with
        sourceAmount := 999
        destinationAmount := 0
        routes :=
          [⟨50.0, [⟨.ofNat 3, .ofNat 6, [⟨"1st", 100.0, 500, 70⟩]⟩,
              ⟨.ofNat 6, .ofNat 5, [⟨"2nd", 50.0, 300, 1⟩, ⟨"3rd", 50.0, 301, 90⟩]⟩]⟩,
            ⟨50.0, [⟨.ofNat 3, .ofNat 5, [⟨"4th", 100.0, 500, 2⟩]⟩]⟩] }
    adapters := rawSale.adapters.map fun adapter =>
      { adapter with
        special := some .plain
        spender := some adapter.target
        returnPosition := some 0 }
    wrapCalls := some ⟨none, none⟩ }

theorem restates_requotedSale : rawSale.Restates requotedSale where
  network := rfl
  trade := by
    refine ⟨rfl, rfl, by decide, .cons ⟨rfl, ?_⟩ (.cons ⟨rfl, ?_⟩ .nil)⟩
    · exact .cons ⟨rfl, rfl, .cons ⟨rfl, rfl, rfl⟩ .nil⟩
        (.cons ⟨rfl, rfl, .cons ⟨rfl, rfl, rfl⟩ (.cons ⟨rfl, rfl, rfl⟩ .nil)⟩ .nil)
    · exact .cons ⟨rfl, rfl, .cons ⟨rfl, rfl, rfl⟩ .nil⟩ .nil
  adapters := by
    refine List.forall₂_map_right_iff.2 (List.forall₂_same.2 fun adapter hmem => ?_)
    simp only [rawSale, List.mem_cons, List.not_mem_nil, or_false] at hmem
    rcases hmem with rfl | rfl | rfl | rfl <;>
      exact ⟨rfl, rfl, rfl, rfl, rfl, .spelledOut, .spelledOut, .spelledOut⟩
  amounts := by decide +kernel
  wrapCalls := .spelledOut

theorem bytecode_restated_requotedSale :
    ∃ data, rawSale.bytecode = .ok data ∧ requotedSale.bytecode = .ok data := by
  obtain ⟨data, hdata⟩ : ∃ data, rawSale.bytecode = .ok data :=
    exists_eq_ok_of_isSome (by decide +kernel)
  rcases bytecode_restated restates_requotedSale with hsame | ⟨fault, _, hfault, _⟩
  · exact hsame
  · rw [hdata] at hfault
    exact nomatch hfault

end Job

end SwapCompiler
