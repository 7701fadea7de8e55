import RestQuery.Proofs.Ast.Filters
import RestQuery.Proofs.Query.WellFormed

/-!
# All filters of a tree are well-formed

The filters that the parameters stand for are well-formed. They are pushed into their levels once
more, and columns that belong to no embed of their level are dropped, and they stay well-formed.
-/

namespace RestQuery

namespace Request

/-- The filters of the root and of each embed of a tree are well-formed at every depth. -/
theorem wellFormed_toAst {config : Config} {r : Request} {ast : Ast}
    (h : r.toAst config = .ok ast) : ast.EachFilter (Filter.Each FilterEntry.WellFormed) := by
  obtain ⟨⟨ctx, select⟩, hread, -⟩ := bind_eq_ok.mp h
  rw [toAst_of_read hread] at h
  obtain ⟨p, hp, h⟩ := bind_eq_ok.mp h
  have hretain (keep : String → Bool) (f : Filter) :=
    Filter.each_retain (Filter.retainsInto_wellFormed keep) f
  refine Parts.eachFilter_assemble Filter.survivesPush_wellFormed hretain (selectIsRead hread hp)
    (ascending_parts hp).1 (fun path => ?_) h
  obtain ⟨_, _, _, _, _, -, hfilters, -, -, -, rfl⟩ := parts_eq_ok.mp hp
  exact Filters.wellFormed_ofContext hfilters path

/-- A test on an embed, two tests on a column, and a negated group with a condition on an embed that
is not there. -/
theorem wellFormed_toAst_items :
    ∃ ast, (items "/items?select=a(id)&a=is.null&k=gt.1&k=gt.2&not.or=(k.in.(1,x),b.k.eq.1)").toAst
        {} = .ok ast ∧ ast.EachFilter (Filter.Each FilterEntry.WellFormed) := by
  have hurl : Url.ofTarget
      "/items?select=a(id)&a=is.null&k=gt.1&k=gt.2&not.or=(k.in.(1,x),b.k.eq.1)" =
        .ok ⟨"/items".toList,
          some "select=a(id)&a=is.null&k=gt.1&k=gt.2&not.or=(k.in.(1,x),b.k.eq.1)".toList⟩ := by
    rfl
  have hparams : Params.ofQuery
      (some "select=a(id)&a=is.null&k=gt.1&k=gt.2&not.or=(k.in.(1,x),b.k.eq.1)".toList) =
        [("select", "a(id)"), ("a", "is.null"), ("k", "gt.1"), ("k", "gt.2"),
          ("not.or", "(k.in.(1,x),b.k.eq.1)")] := by
    rfl
  have hread := read_items_embed hurl hparams rfl
  have hok : (parts (itemsContext [("select", "a(id)"), ("a", "is.null"), ("k", "gt.1"),
      ("k", "gt.2"), ("not.or", "(k.in.(1,x),b.k.eq.1)")] ["a"] .lenient) (some embedSelect) >>=
        Parts.assemble).isOk = true := by
    decide +kernel
  obtain ⟨ast, h⟩ := exists_eq_ok hok
  rw [← toAst_of_read hread] at h
  exact ⟨ast, h, wellFormed_toAst h⟩

end Request

end RestQuery
