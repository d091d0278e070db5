import ModelPublish.Server.Outcomes

/-!
# The magic word

Which requests without it are turned away with nothing changed.
-/

namespace ModelPublish.Server
open Reply

def NoMagic (host : Host) (request : HttpRequest) : Prop :=
  ∀ query, host.uri.decode request.query = some query → ¬ HasMagic (host.uri.splitQuery query)

/-- Nothing is changed, and the reply is for an unknown client and carries nothing. -/
def Filtered {host : Host} (w : World host.mysql.collation)
    (served : Except Stop Reply × World host.mysql.collation) : Prop :=
  served.2 = w ∧ ∃ reply, served.1 = .ok reply ∧ reply.errorCode = .unknownClient ∧ reply.Bare

/-- The URI decodes, and a POST names no method and has a body of JSON. -/
def OnlyPath (host : Host) (method : Method) (request : HttpRequest) : Prop :=
  ∃ path query, host.uri.decode request.path = some path ∧ host.uri.decode request.query = some query ∧
    (method = .post → host.uri.splitPath path = [] ∧ ∃ value, request.body = .json value)

section
variable {host : Host} {env : Env} {request : HttpRequest} {w : World host.mysql.collation}

theorem filtered_pure {reply : Reply} (code : reply.errorCode = .unknownClient) (bare : reply.Bare) :
    Filtered w (runAlone host env (pure reply) w) :=
  ⟨rfl, reply, rfl, code, bare⟩

theorem not_filtered_stop {e : Stop} : ¬ Filtered w (runAlone host env (.stop e) w) := by
  rintro ⟨-, reply, returned, -⟩
  cases returned

theorem not_filtered_of_ends {p : Program Reply} {payload : Payload} (h : p.Ends (Settled payload)) :
    ¬ Filtered w (runAlone host env p w) := by
  rintro ⟨-, reply, returned, code, -⟩
  rcases runAlone_ends h returned with refused | succeeded
  · exact refused.code.2 code
  · rw [succeeded.code] at code
    cases code

theorem not_filtered_badMethod : ¬ Filtered w (runAlone host env (pure badMethod) w) := by
  rintro ⟨-, reply, returned, code, -⟩
  cases returned
  cases code

theorem not_filtered_post {path : WString} {value : Json} {strMethod : WString}
    (named : (host.uri.splitPath path).getLast? = some strMethod)
    (decodesPath : host.uri.decode request.path = some path) {query : WString}
    (decodesQuery : host.uri.decode request.query = some query) (body : request.body = .json value) :
    ¬ Filtered w (serve host env .post request w) := by
  rw [serve, handle, handlePost, decodeUri, decodeUri, decodesPath, decodesQuery, body]
  simp only [Machine.Prog.pure_bind, named]
  split
  · exact not_filtered_of_ends (onUploadModel_ends host env _)
  · split
    · exact not_filtered_of_ends (onUploadAd_ends host env _)
    · split
      · exact not_filtered_of_ends (onCreateSubscription_ends host env _)
      · exact not_filtered_badMethod

/-- Without the magic word, every GET that can be decoded is turned away, and of the POSTs those alone
that name no method. -/
theorem magic_filters (env : Env) (method : Method) (w : World host.mysql.collation)
    (noMagic : NoMagic host request) :
    Filtered w (serve host env method request w) ↔ OnlyPath host method request := by
  cases decodesPath : host.uri.decode request.path with
  | none =>
    refine iff_of_false ?_ ?_
    · have stops : serve host env method request w = runAlone host env (.stop .uriException) w := by
        cases method <;> simp [serve, handle, handleGet, handlePost, decodeUri, decodesPath]
      rw [stops]
      exact not_filtered_stop
    · rintro ⟨path, query, decodes, -⟩
      rw [decodesPath] at decodes
      cases decodes
  | some path =>
    cases decodesQuery : host.uri.decode request.query with
    | none =>
      refine iff_of_false ?_ ?_
      · have stops : serve host env method request w = runAlone host env (.stop .uriException) w := by
          cases method <;> simp [serve, handle, handleGet, handlePost, decodeUri, decodesPath, decodesQuery]
        rw [stops]
        exact not_filtered_stop
      · rintro ⟨path, query, -, decodes, -⟩
        rw [decodesQuery] at decodes
        cases decodes
    | some query =>
      cases method with
      | get =>
        refine iff_of_true ?_ ⟨path, query, decodesPath, decodesQuery, by rintro ⟨⟩⟩
        rw [serve, handle, handleGet, decodeUri, decodeUri, decodesPath, decodesQuery]
        simp only [Machine.Prog.pure_bind]
        split
        · exact filtered_pure rfl ⟨rfl, rfl, rfl, rfl, rfl, rfl⟩
        · rw [if_pos (noMagic query decodesQuery)]
          exact filtered_pure rfl ⟨rfl, rfl, rfl, rfl, rfl, rfl⟩
      | post =>
        have only : OnlyPath host .post request ↔
            host.uri.splitPath path = [] ∧ ∃ value, request.body = .json value := by
          constructor
          · rintro ⟨path', query', decodes, -, alone⟩
            rw [decodesPath] at decodes
            cases decodes
            exact alone rfl
          · exact fun alone => ⟨path, query, decodesPath, decodesQuery, fun _ => alone⟩
        rw [only]
        cases body : request.body with
        | unreadable =>
          refine iff_of_false ?_ (by simp)
          rw [serve, handle, handlePost, decodeUri, decodeUri, decodesPath, decodesQuery, body]
          rintro ⟨-, reply, returned, code, -⟩
          cases returned
          cases code
        | malformed =>
          refine iff_of_false ?_ (by simp)
          rw [serve, handle, handlePost, decodeUri, decodeUri, decodesPath, decodesQuery, body]
          exact not_filtered_stop
        | json value =>
          cases named : (host.uri.splitPath path).getLast? with
          | none =>
            refine iff_of_true ?_ ⟨List.getLast?_eq_none_iff.mp named, value, rfl⟩
            rw [serve, handle, handlePost, decodeUri, decodeUri, decodesPath, decodesQuery, body]
            simp only [Machine.Prog.pure_bind, named]
            exact filtered_pure rfl ⟨rfl, rfl, rfl, rfl, rfl, rfl⟩
          | some strMethod =>
            apply iff_of_false (not_filtered_post named decodesPath decodesQuery body)
            rintro ⟨empty, -⟩
            rw [empty] at named
            cases named

end

def uploadWithoutMagic : HttpRequest := ⟨wide "/3dscan/upload_model", [], .json (.object Small.upload)⟩

theorem noMagic_upload : NoMagic Small.host uploadWithoutMagic := by
  rintro query ⟨⟩
  decide +kernel

theorem magic_filters_get : Filtered Small.world (serve Small.host Small.env .get uploadWithoutMagic Small.world) :=
  (magic_filters Small.env .get Small.world noMagic_upload).mpr ⟨_, _, rfl, rfl, by rintro ⟨⟩⟩

/-- A POST without the magic word publishes a model. -/
theorem upload_without_magic : NoMagic Small.host uploadWithoutMagic ∧
    ¬ Filtered Small.world (serve Small.host Small.env .post uploadWithoutMagic Small.world) ∧
    (serve Small.host Small.env .post uploadWithoutMagic Small.world).2.db.models.rows =
      [⟨1, some 1, some 1, ascii "n", ascii "d"⟩] := by
  have named : (Small.host.uri.splitPath uploadWithoutMagic.path).getLast? = some (wide "upload_model") := by
    decide +kernel
  exact ⟨noMagic_upload, not_filtered_post named rfl rfl rfl, by decide +kernel⟩

end ModelPublish.Server
