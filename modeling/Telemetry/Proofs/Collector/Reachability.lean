import Telemetry.Collector.Demux
import Telemetry.Proofs.Config.Loading

/-!
# Reachability — which sources can be heard

Sources are kept under their addresses as written, but a sender is looked up by its canonical address.
So a source whose address is canonical hears every datagram from it, also by the mapped form of a
version 4 address (`Demux.handle_of_loaded`).  A source that is configured by a mapped address hears
nothing, and may stand beside one for the same host (`Demux.handle_mappedHost`).
-/

namespace Telemetry

/-! ## Canonical addresses -/

theorem Ipv4.ofGroups_toGroups (ip : Ipv4) :
    ofGroups (ip.a.toUInt16 * 256 + ip.b.toUInt16) (ip.c.toUInt16 * 256 + ip.d.toUInt16) = ip := by
  have hhigh : ∀ x y : UInt8, ((x.toUInt16 * 256 + y.toUInt16) / 256).toUInt8 = x := by
    intro x y
    have hx := x.toNat_lt
    have hy := y.toNat_lt
    apply UInt8.toNat_inj.1
    simp
    omega
  have hlow : ∀ x y : UInt8, (x.toUInt16 * 256 + y.toUInt16).toUInt8 = y := by
    intro x y
    apply UInt8.toNat_inj.1
    simp
  rw [ofGroups, hhigh, hlow, hhigh, hlow]

namespace IpAddress

theorem canonical_mapped (ip : Ipv4) : (v6 ip.mapped).canonical = v4 ip := by
  have hmapped : ip.mapped.mapped? = some ip := congrArg some ip.ofGroups_toGroups
  rw [canonical, hmapped]

/-- The canonical form of an address is canonical. -/
theorem canonical_canonical (ip : IpAddress) : ip.canonical.canonical = ip.canonical := by
  cases ip with
  | v4 ip => rfl
  | v6 ip =>
      cases hmapped : ip.mapped? with
      | none => rw [canonical, hmapped, canonical, hmapped]
      | some plain => rw [canonical, hmapped, canonical]

end IpAddress

/-! ## Senders and sources -/

namespace SourceSet.Loaded

variable {r : Resolver} {sources : SourceSet} {s : Source}

/-- A sender is taken for the source that its canonical address names. -/
theorem find?_eq_some_iff (h : sources.Loaded r) (hs : s ∈ sources.entries) (ip : IpAddress) :
    sources.find? ip.canonical = some s ↔ ip.canonical = s.address :=
  h.distinct.find?_eq_some_iff.trans ⟨fun h => h.2.symm, fun h => ⟨hs, h.symm⟩⟩

/-- A source whose address is not canonical is no sender's. -/
theorem find?_ne_of_mapped (h : sources.Loaded r) (hs : s ∈ sources.entries)
    (hmapped : s.address.canonical ≠ s.address) (ip : IpAddress) :
    sources.find? ip.canonical ≠ some s := by
  intro hfound
  rw [h.find?_eq_some_iff hs] at hfound
  rw [← hfound] at hmapped
  exact hmapped ip.canonical_canonical

end SourceSet.Loaded

namespace Demux

def hear (d : Demux) (source : Source) (datagram : List UInt8) : Option String × Demux :=
  match Packet.parse datagram with
  | .error _ => (none, { d with stats := { d.stats with rejected := d.stats.rejected + 1 } })
  | .ok p => d.route source p

theorem handle_of_find? {sources : SourceSet} {sender : SocketAddress} {source : Source}
    (h : sources.find? sender.ip.canonical = some source) (d : Demux) (datagram : List UInt8) :
    d.handle sources sender datagram = d.hear source datagram := by
  rw [handle, h]
  rfl

/-- In a configuration that loads, every source has the address of its host.  If that is canonical,
the source hears what is sent from it, written plainly or mapped; otherwise it hears nothing.  No two
sources with canonical addresses are for one host. -/
theorem handle_of_loaded {r : Resolver} {text : String} {config : CollectorConfig}
    (h : CollectorConfig.parse r text = .ok config) :
    (∀ s ∈ config.sources.entries, r.host s.host = .ok s.address)
      ∧ (∀ s ∈ config.sources.entries, s.address.canonical = s.address →
        ∀ sender : SocketAddress,
          sender.ip = s.address ∨ (∃ ip, s.address = .v4 ip ∧ sender.ip = .v6 ip.mapped) →
          ∀ (d : Demux) (datagram : List UInt8),
            d.handle config.sources sender datagram = d.hear s datagram)
      ∧ (∀ s ∈ config.sources.entries, s.address.canonical ≠ s.address →
        ∀ sender : SocketAddress, config.sources.find? sender.ip.canonical ≠ some s)
      ∧ ∀ s ∈ config.sources.entries, ∀ t ∈ config.sources.entries,
        s.address.canonical = s.address → t.address.canonical = t.address →
        s.address.canonical = t.address.canonical → s = t := by
  have hloaded := CollectorConfig.loaded_of_parse h
  -- everything hangs on which source the canonical address of a sender names
  refine ⟨hloaded.resolved, ?_, ?_, ?_⟩
  · intro s hs hcanonical sender hsender d datagram
    apply handle_of_find?
    rw [hloaded.find?_eq_some_iff hs]
    rcases hsender with hplain | ⟨ip, hip, hmapped⟩
    · rw [hplain, hcanonical]
    · rw [hmapped, hip, IpAddress.canonical_mapped]
  · exact fun s hs hmapped sender => hloaded.find?_ne_of_mapped hs hmapped sender.ip
  · intro s hs t ht hcs hct hsame
    have hfound := (hloaded.find?_eq_some_iff hs s.address).2 hcs
    rw [hsame, (hloaded.find?_eq_some_iff ht t.address).2 hct] at hfound
    exact (Option.some.inj hfound).symm

/-- A source known by a version 4 address hears a mapped sender. -/
theorem handle_of_loaded_mappedSender :
    let text := "listen = \"127.0.0.1:0\"\n[[source]]\nhost = \"10.0.0.2\"\naccept = [\"cpu(0)\"]\n"
    let cpu : StreamKey := ⟨.cpu, "0", by decide, by simp⟩
    let s : Source := ⟨"10.0.0.2", .v4 ⟨10, 0, 0, 2⟩, ⟨[⟨cpu, none⟩]⟩⟩
    let config : CollectorConfig := ⟨⟨.v4 ⟨127, 0, 0, 1⟩, 0, 0⟩, none, 65536, ⟨[s]⟩⟩
    CollectorConfig.parse .literal text = .ok config
      ∧ s.address.canonical = s.address
      ∧ ∀ (d : Demux) (datagram : List UInt8),
        d.handle config.sources ⟨.v6 (Ipv4.mapped ⟨10, 0, 0, 2⟩), 0, 40000⟩ datagram
          = d.hear s datagram := by
  intro text cpu s config
  have h : CollectorConfig.parse .literal text = .ok config := ok_of_toOption (by decide +kernel)
  exact ⟨h, rfl, (handle_of_loaded h).2.1 s List.mem_cons_self rfl _ (.inr ⟨_, rfl, rfl⟩)⟩

/-- A source that is configured by a mapped address hears nothing from it, however it is written; and
beside a source for the same host it loads just as well. -/
theorem handle_mappedHost :
    let listen := "listen = \"127.0.0.1:0\"\n"
    let plain := "[[source]]\nhost = \"10.0.0.2\"\naccept = [\"cpu(0)\"]\n"
    let mapped := "[[source]]\nhost = \"::ffff:10.0.0.2\"\naccept = [\"cpu(0)\"]\n"
    let cpu : StreamKey := ⟨.cpu, "0", by decide, by simp⟩
    let s : Source := ⟨"10.0.0.2", .v4 ⟨10, 0, 0, 2⟩, ⟨[⟨cpu, none⟩]⟩⟩
    let t : Source := ⟨"::ffff:10.0.0.2", .v6 (Ipv4.mapped ⟨10, 0, 0, 2⟩), ⟨[⟨cpu, none⟩]⟩⟩
    let config (sources : List Source) : CollectorConfig :=
      ⟨⟨.v4 ⟨127, 0, 0, 1⟩, 0, 0⟩, none, 65536, ⟨sources⟩⟩
    (CollectorConfig.parse .literal (listen ++ mapped) = .ok (config [t])
        ∧ ∀ ip : IpAddress, ip = .v4 ⟨10, 0, 0, 2⟩ ∨ ip = t.address →
          ∀ (d : Demux) (datagram : List UInt8),
            d.handle (config [t]).sources ⟨ip, 0, 40000⟩ datagram = (none,
              { d with stats := { d.stats with unknownSources := d.stats.unknownSources + 1 } }))
      ∧ CollectorConfig.parse .literal (listen ++ plain ++ mapped) = .ok (config [s, t])
      ∧ s.address.canonical = t.address.canonical := by
  intro listen plain mapped cpu s t config
  refine ⟨⟨ok_of_toOption (by decide +kernel), ?_⟩, ok_of_toOption (by decide +kernel), rfl⟩
  rintro ip (rfl | rfl) d datagram
  · rfl
  · rfl

end Demux
end Telemetry
