import VectorForge.Lib.Interleaving

/-! Two programs that run alone, each on a state of its own, and what their results have to do
with each other. -/

namespace Prog
variable {Op : Type} {Ret : Op → Type} {α β α' β' σ τ : Type}

theorem run_bind {answer : (o : Op) → σ → Option (Ret o × σ)} (p : Prog Op Ret α) (f : α → Prog Op Ret β) (s : σ) :
    (p >>= f).run answer s = (p.run answer s).bind fun (a, s) => (f a).run answer s := by
  induction p generalizing s with
  | done a => rfl
  | call o next ih =>
    simp only [call_bind, run]
    cases answer o s with
    | none => rfl
    | some answered => exact ih answered.1 answered.2

/-- `p` ends on its own with `post`. -/
def Reaches (answer : (o : Op) → σ → Option (Ret o × σ)) (p : Prog Op Ret α) (s : σ) (post : α → σ → Prop) : Prop :=
  ∃ a s', p.run answer s = some (a, s') ∧ post a s'

/-- `p` ends. Unless it fails, `q` ends as well, in a way that is related. -/
def Follows (answer : (o : Op) → σ → Option (Ret o × σ))
    (answer' : (o : Op) → τ → Option (Ret o × τ)) (p : Prog Op Ret α)
    (q : Prog Op Ret β) (s : σ) (t : τ) (fails : α → σ → Prop) (post : α → σ → β → τ → Prop) : Prop :=
  Reaches answer p s fun a s' => fails a s' ∨ Reaches answer' q t fun b t' => post a s' b t'

variable {answer : (o : Op) → σ → Option (Ret o × σ)} {answer' : (o : Op) → τ → Option (Ret o × τ)} {s : σ} {t : τ}

namespace Reaches
variable {p : Prog Op Ret α} {post : α → σ → Prop}

theorem done {a : α} (holds : post a s) : Reaches answer (.done a) s post := ⟨a, s, rfl, holds⟩

theorem bind {f : α → Prog Op Ret β} {after : β → σ → Prop} (first : Reaches answer p s post)
    (rest : ∀ a s', post a s' → Reaches answer (f a) s' after) : Reaches answer (p >>= f) s after := by
  obtain ⟨a, s', run, holds⟩ := first
  obtain ⟨b, s'', more, last⟩ := rest a s' holds
  refine ⟨b, s'', ?_, last⟩
  rw [run_bind, run]
  exact more

theorem mono {weaker : α → σ → Prop} (reaches : Reaches answer p s post) (imp : ∀ a s', post a s' → weaker a s') :
    Reaches answer p s weaker := by
  obtain ⟨a, s', run, holds⟩ := reaches
  exact ⟨a, s', run, imp a s' holds⟩

end Reaches

namespace Follows
variable {p : Prog Op Ret α} {q : Prog Op Ret β} {fails : α → σ → Prop} {post : α → σ → β → τ → Prop}

theorem done {a : α} {b : β} (holds : post a s b t) : Follows answer answer' (.done a) (.done b) s t fails post :=
  Reaches.done (Or.inr (Reaches.done holds))

theorem failed {a : α} (holds : fails a s) : Follows answer answer' (.done a) q s t fails post :=
  Reaches.done (Or.inl holds)

theorem mono {fails' : α → σ → Prop} {weaker : α → σ → β → τ → Prop}
    (follows : Follows answer answer' p q s t fails post)
    (ends : ∀ a s', fails a s' → fails' a s') (imp : ∀ a s' b t', post a s' b t' → weaker a s' b t') :
    Follows answer answer' p q s t fails' weaker := by
  refine Reaches.mono follows ?_
  rintro a s' (failed | reached)
  · exact .inl (ends a s' failed)
  · exact .inr (reached.mono fun b t' => imp a s' b t')

theorem bind {f : α → Prog Op Ret α'} {g : β → Prog Op Ret β'} {fails' : α' → σ → Prop}
    {after : α' → σ → β' → τ → Prop} (first : Follows answer answer' p q s t fails post)
    (ends : ∀ a s', fails a s' → Reaches answer (f a) s' fails')
    (rest : ∀ a s' b t', post a s' b t' → Follows answer answer' (f a) (g b) s' t' fails' after) :
    Follows answer answer' (p >>= f) (q >>= g) s t fails' after := by
  refine Reaches.bind first ?_
  rintro a s' (failed | ⟨b, t', run, holds⟩)
  · exact (ends a s' failed).mono fun _ _ => .inl
  · refine Reaches.mono (rest a s' b t' holds) ?_
    rintro a' s'' (failed | ⟨b', t'', more, last⟩)
    · exact .inl failed
    · refine .inr ⟨b', t'', ?_, last⟩
      rw [run_bind, run]
      exact more

/-- What comes after steps that both programs have taken. -/
theorem of_runs {p' : Prog Op Ret α} {q' : Prog Op Ret β} {s' : σ} {t' : τ}
    (left : p.run answer s = p'.run answer s')
    (right : q.run answer' t = q'.run answer' t') (rest : Follows answer answer' p' q' s' t' fails post) :
    Follows answer answer' p q s t fails post := by
  obtain ⟨a, s'', run, holds⟩ := rest
  refine ⟨a, s'', left.trans run, ?_⟩
  rcases holds with failed | ⟨b, t'', more, last⟩
  · exact .inl failed
  · exact .inr ⟨b, t'', right.trans more, last⟩

theorem left {p' : Prog Op Ret α} {s' : σ} (run : p.run answer s = p'.run answer s')
    (rest : Follows answer answer' p' q s' t fails post) : Follows answer answer' p q s t fails post :=
  of_runs run rfl rest

theorem right {q' : Prog Op Ret β} {t' : τ} (run : q.run answer' t = q'.run answer' t')
    (rest : Follows answer answer' p q' s t' fails post) : Follows answer answer' p q s t fails post :=
  of_runs rfl run rest

/-- Only the first program goes on. -/
theorem bind_left {f : α → Prog Op Ret α'} {fails' : α' → σ → Prop} {after : α' → σ → β → τ → Prop}
    (first : Follows answer answer' p q s t fails post) (ends : ∀ a s', fails a s' → Reaches answer (f a) s' fails')
    (rest : ∀ a s' b t', post a s' b t' → Reaches answer (f a) s' fun a' s'' => after a' s'' b t') :
    Follows answer answer' (p >>= f) q s t fails' after := by
  refine Reaches.bind first ?_
  rintro a s' (failed | ⟨b, t', run, holds⟩)
  · exact (ends a s' failed).mono fun _ _ => .inl
  · exact (rest a s' b t' holds).mono fun a' s'' last => .inr ⟨b, t', run, last⟩

/-- A step of both programs with the same answer. -/
theorem call {o : Op} {f : Ret o → Prog Op Ret α} {g : Ret o → Prog Op Ret β} {r : Ret o} {s' : σ} {t' : τ}
    (left : answer o s = some (r, s')) (right : answer' o t = some (r, t'))
    (rest : Follows answer answer' (f r) (g r) s' t' fails post) :
    Follows answer answer' (.call o f) (.call o g) s t fails post := by
  refine Follows.of_runs ?_ ?_ rest
  · rw [Prog.run, left]
    rfl
  · rw [Prog.run, right]
    rfl

end Follows
end Prog
