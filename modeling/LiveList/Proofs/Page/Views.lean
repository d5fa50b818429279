import LiveList.Proofs.Page.Guard
import LiveList.Proofs.Page.Hosting
import LiveList.Proofs.View.Showing

namespace LiveList

theorem ListBuilder.build_sane {builder : ListBuilder} {d : Document} {view : ListView}
    (built : builder.build d = .ok view) : view.Sane := by
  obtain ⟨collection, -, rooted, -⟩ := build_ok built
  exact ⟨rooted, collection ▸ Collection.empty_sound⟩

namespace Page

variable {ℓ π κ σ : Type} {page left : Page ℓ σ} {list : Nat} {mounted : Mounted ℓ}
  {P : ListView → Prop}

def EachView (P : ListView → Prop) (page : Page ℓ σ) : Prop :=
  ∀ list mounted, page.list? list = some mounted → P mounted.view

theorem EachView.modifyList (each : EachView P page) {f : Mounted ℓ → Mounted ℓ}
    (keeps : ∀ mounted, page.list? list = some mounted → P (f mounted).view) :
    EachView P (page.modifyList list f) := by
  intro other mounted there
  rcases list?_modifyList_eq_some there with ⟨was, found, -, rfl⟩ | ⟨-, there⟩
  · exact keeps was found
  · exact each other mounted there

theorem eachView_guards (kept : ∀ {stroke : Stroke} {view d result left},
    stroke.change.on ⟨view, d⟩ = (result, left) → P view → P left.view) :
    Guards (ℓ := ℓ) (π := π) (κ := κ) (σ := σ) (fun _ _ => True) fun (_ : Unit) s =>
      EachView P s.page where
  model _ _ _ _ _ _ := trivial
  user _ _ _ each := each
  document _ _ _ each := each
  state _ s list f view _ each :=
    each.modifyList fun mounted there => view mounted ▸ each list mounted there
  subscribe _ s list mounted _ _ _ each :=
    each.modifyList fun mounted there => each list mounted there
  unsubscribe _ s list mounted _ _ each :=
    each.modifyList fun mounted there => each list mounted there
  strike _ listen _ list _ _ _ := by
    refine strikeTraced_preserves (fun s mounted result scene each there run => ?_)
      (fun _ _ _ each => each) (fun _ _ _ each => each) (listen ())
    have others : EachView P { s.page with document := scene.document } := each
    exact others.modifyList fun _ _ => kept run (each list mounted there)

theorem EachView.perform (kept : ∀ {stroke : Stroke} {view d result left},
    stroke.change.on ⟨view, d⟩ = (result, left) → P view → P left.view) (each : EachView P page)
    {behaviour : Behaviour ℓ π κ σ} {depth : Nat} {r : Request ℓ π κ} {answer : r.Answer}
    (run : (perform behaviour depth r).run page = some (answer, left)) : EachView P left := by
  obtain ⟨t, traced, -, rfl⟩ :=
    (trace_inStep behaviour depth r).exists_run (s := ⟨page, []⟩) rfl run
  exact (eachView_guards kept).trace behaviour () depth r _ each answer t traced

def viewing (P : ListView → Prop) : Course ℓ σ where
  sane := EachView P
  leads _ _ := True
  refl _ := trivial
  trans _ _ := trivial

theorem Attained.sane {behaviour : Behaviour ℓ π κ σ} (attained : Attained behaviour page) :
    EachView ListView.Sane page := by
  induction attained with
  | start d user => exact fun list mounted there => by simp [list?] at there
  | mount _ _ built _ _ ih =>
    intro list mounted there
    rcases list?_mount_eq_some there with ⟨-, rfl⟩ | ⟨-, there⟩
    · exact ListBuilder.build_sane built
    · exact ih list mounted there
  | refuse _ ih => exact fun list mounted there => ih list mounted (list?_of_refuse there)
  | ask _ _ run ih => exact ih.perform Stroke.sane run
  | elsewhere _ _ _ _ ih => exact ih
  | forget _ _ ih => exact fun list mounted there => ih list mounted (list?_of_forget there)

theorem Attained.each {behaviour : Behaviour ℓ π κ σ} {depth : Nat} {requests : List (Request ℓ π κ)}
    (onLists : ∀ r ∈ requests, r.OnList) (attained : Attained behaviour page)
    (run : (performEach behaviour depth requests).run page = some ((), left)) :
    Attained behaviour left := by
  induction requests generalizing page with
  | nil =>
    cases run
    exact attained
  | cons r rest ih =>
    obtain ⟨⟨answer, mid⟩, asked, run⟩ := Option.bind_eq_some_iff.1 run
    exact ih (fun other inside => onLists other (List.mem_cons_of_mem _ inside))
      (attained.ask (onLists r List.mem_cons_self) asked) run

end Page

end LiveList
