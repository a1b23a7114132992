import Resampler.Proofs.Chain.Persistence
import Resampler.Proofs.Chain.Regime
import Resampler.Proofs.Program.Transcript

/-!
# A store and its log

As long as nobody else writes to any store, the log of a store lists just what the store
holds (`Shared.Mirrors`): every text that it takes it appends. That goes on being so
whatever is drawn through chains that are laid over a cache on that store, and have no
stores of their own.
-/

namespace Resampler

namespace FileTree

variable {t : FileTree} {path : Path} {place : Location} {entries : Log.Entries} {r : Record}

/-- A record that is appended to a log is listed. -/
theorem HasLog.append (h : t.HasLog path place entries) (hr : r.key ≤ Numeral.wordMax) :
    (t.withRecord place r).HasLog path place (entries.insertIfAbsent r.key r.value) := by
  obtain ⟨content, hkeeps, -⟩ := h.file
  obtain ⟨content', hfile, hread⟩ := (h.lists.append hr).file
  have happended := hkeeps.set (Log.append content r)
  have heq : content' = Log.append content r := by
    rw [get?_withRecord hkeeps.file, if_pos rfl] at hfile
    cases hfile
    rfl
  subst heq
  refine ⟨_, ?_, hread⟩
  unfold withRecord
  rw [hkeeps.contentAt_eq]
  exact happended

end FileTree

namespace Shared

/-- **A condition on the stores and the files.** -/
def OfStores (J : Shared → Prop) : Prop :=
  ∀ {s t : Shared}, J s → t.stores = s.stores → t.files = s.files → J t

/-- **The log of a store lists what the store holds.** -/
def Mirrors (s : Shared) (i : Nat) (path : Path) (place : Location) : Prop :=
  ∃ entries, s.stores.get? i = some (.log path place entries)
    ∧ s.files.HasLog path place entries

variable {s t : Shared} {i number : Nat} {path : Path} {place : Location} {text : String}

theorem ofStores_mirrors (i : Nat) (path : Path) (place : Location) :
    OfStores fun s => s.Mirrors i path place := by
  rintro s t ⟨entries, hst, hlog⟩ hstores hfiles
  refine ⟨entries, ?_, ?_⟩
  · rw [hstores, hst]
  · rw [hfiles]
    exact hlog

/-- What the store takes, its log lists. -/
theorem Mirrors.keep (h : s.Mirrors i path place) (hnumber : number ≤ Numeral.wordMax)
    (hkeep : s.keep i number text = .ok t) : t.Mirrors i path place := by
  obtain ⟨entries, hst, hlog⟩ := h
  obtain ⟨st, files, hinserts, rfl⟩ := exists_inserts_of_keep hkeep
  rw [store_of_get?_eq_some hst] at hinserts
  have hthere := (get?_stores_withStore s i i st files).trans (if_pos rfl)
  cases hinserts with
  | nothing => exact ⟨entries, hthere, hlog⟩
  | log => exact ⟨_, hthere, hlog.append (r := ⟨number, text⟩) hnumber⟩

end Shared

section Draws

variable {J : Shared → Prop} {inner c : Chain} {site : Site} {key : Option RandomKey}
variable {s : Shared}

/-- **What a chain does to stores and files, all chains do** that are laid over it and have
no stores besides. -/
theorem Chain.LaidOver.keeps_stores (hJ : Shared.OfStores J)
    (hinner : ∀ site key s, J s → J (inner.draw site key s).2)
    (hc : inner.LaidOver (fun _ h => ∀ i, h ≠ .persistent i) c) (hs : J s) :
    J (c.draw site key s).2 := by
  refine (Regime.keeps_of_laidOver (R := regimeOf site.name J) (fun {id h} hne => ?_)
    (fun site key s _ hs => ?_) hc site key s rfl hs).after
  · exact
      { hands := fun hname _ _ hA => hname.trans hA
        before := fun _ hw hs => hJ hs (hw.stores_eq hne).1 (hw.stores_eq hne).2
        after := fun _ hw hs => hJ hs (hw.stores_eq hne).1 (hw.stores_eq hne).2
        asks := fun _ _ hs => ⟨hJ hs rfl rfl, hJ hs rfl rfl⟩ }
  · exact ⟨hinner site key s hs, fun _ _ => hinner site key s hs, fun _ _ => trivial⟩

/-- So do programs that draw through such chains. -/
theorem Program.Within.keeps_stores {σ : Type} (hJ : Shared.OfStores J)
    (hinner : ∀ site key s, J s → J (inner.draw site key s).2) {p : Program σ}
    (hp : p.Within fun c _ => inner.LaidOver (fun _ h => ∀ i, h ≠ .persistent i) c.chain)
    (hs : J s) : J (p.run s).2 := by
  have hquiet : IsQuiet J :=
    { install := fun _ hs => hJ hs rfl rfl
      release := fun _ hs => hJ hs rfl rfl
      cancel := fun _ hs => hJ hs rfl rfl }
  refine (hp.run (P := fun _ _ => True) hquiet (fun {c site s} hc hs => ⟨?_, trivial⟩) hs).1
  unfold Context.draw
  split
  · exact hs
  · exact hc.keeps_stores hJ hinner hs

variable {m a i : Nat} {path : Path} {place : Location}

/-- **A draw through a store over a standard interpreter** leaves the log with what the
store holds. -/
theorem Shared.Mirrors.draw (detectReuse : Bool) (site : Site) (key : Option RandomKey)
    (h : s.Mirrors i path place) :
    ((Chain.link m (.persistent i) (.link a (.standard detectReuse) .empty)).draw site key
      s).2.Mirrors i path place := by
  have hstandard (site : Site) (key : Option RandomKey) :
      ((Chain.link a (.standard detectReuse) .empty).draw site key s).2.Mirrors i path place := by
    have hover : Chain.empty.LaidOver (fun _ h => ∀ j, h ≠ .persistent j)
        (.link a (.standard detectReuse) .empty) := .link (fun _ => nofun) .inner
    have hempty (site : Site) (key : Option RandomKey) (s : Shared)
        (hs : s.Mirrors i path place) : (Chain.empty.draw site key s).2.Mirrors i path place := hs
    exact hover.keeps_stores (ofStores_mirrors i path place) hempty h
  show (Handler.drawPersistent i _ site key s).2.Mirrors i path place
  unfold Handler.drawPersistent
  split
  · exact hstandard _ _
  · exact h
  · next k _ =>
    dsimp only
    split
    · exact h
    · split <;> exact h
    · have hrest := hstandard site (some k)
      split
      · next v t hvalue =>
        rw [hvalue] at hrest
        split
        · next u hkeep => exact hrest.keep (Distribution.cacheKey_le _ _) hkeep
        · exact hrest
      · exact hrest

end Draws

end Resampler
