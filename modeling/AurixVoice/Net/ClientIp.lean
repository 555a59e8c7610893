import AurixVoice.Turn.Stun

/-! The client address of a request, as `client_ip` reads it off the headers; IPv6 parsing and the test of an
address against a network are parameters. -/

namespace AurixVoice.Net

open Turn (IpAddr SocketAddr)

abbrev Text := List Char

def isWhitespace (c : Char) : Bool :=
  (9 ≤ c.toNat && c.toNat ≤ 13) || (0x2000 ≤ c.toNat && c.toNat ≤ 0x200A) ||
    [0x20, 0x85, 0xA0, 0x1680, 0x2028, 0x2029, 0x202F, 0x205F, 0x3000].contains c.toNat

def trim (s : Text) : Text := ((s.dropWhile isWhitespace).reverse.dropWhile isWhitespace).reverse

def parseOctet (s : Text) : Option UInt8 :=
  let n := s.foldl (fun n c => 10 * n + (c.toNat - 48)) 0
  if s.length = 0 ∨ 3 < s.length ∨ (s.head? = some '0' ∧ 1 < s.length) ∨ !s.all Char.isDigit ∨ 255 < n then none
  else some (UInt8.ofNat n)

def parseIpv4 (s : Text) : Option (Vector UInt8 4) :=
  match (s.splitOn '.').map parseOctet with
  | [some a, some b, some c, some d] => some #v[a, b, c, d]
  | _ => none

def canonicalIp : IpAddr → IpAddr
  | .v4 octets => .v4 octets
  | .v6 octets =>
    if octets.toList.take 12 = List.replicate 10 0 ++ [255, 255] then .v4 ((octets.drop 12).cast rfl) else .v6 octets

variable {IpNetwork : Type} (parseIpv6 : Text → Option (Vector UInt8 16)) (contains : IpNetwork → IpAddr → Bool)
  (trustedProxies : List IpNetwork)

def parseIpAddr (s : Text) : Option IpAddr := ((parseIpv4 s).map .v4).or ((parseIpv6 s).map .v6)

def isTrusted (ip : IpAddr) : Bool := trustedProxies.any fun n => contains n ip

def hops (xff : Text) : List IpAddr :=
  ((xff.splitOn ',').filterMap fun s => parseIpAddr parseIpv6 (trim s)).map canonicalIp

def forwarded (xff : Text) : Option IpAddr :=
  ((hops parseIpv6 xff).reverse.find? fun ip => !isTrusted contains trustedProxies ip).or (hops parseIpv6 xff).head?

def clientIp (peer : SocketAddr) (forwardedFor realIp : Option Text) : IpAddr :=
  let peerIp := canonicalIp peer.ip
  if !isTrusted contains trustedProxies peerIp then peerIp
  else ((forwardedFor.bind (forwarded parseIpv6 contains trustedProxies)).or
    ((realIp.bind fun s => parseIpAddr parseIpv6 (trim s)).map canonicalIp)).getD peerIp

lemma hops_append (before after : Text) :
    hops parseIpv6 (before ++ ',' :: after) = hops parseIpv6 before ++ hops parseIpv6 after := by
  have hsplit : (before ++ ',' :: after).splitOn ',' = before.splitOn ',' ++ after.splitOn ',' :=
    List.splitOnP_append_cons before after rfl
  rw [hops, hsplit, List.filterMap_append, List.map_append]
  rfl

lemma forwarded_append (before after : Text) :
    forwarded parseIpv6 contains trustedProxies (before ++ ',' :: after) =
      (((hops parseIpv6 after).reverse.find? fun ip => !isTrusted contains trustedProxies ip).or
        ((hops parseIpv6 before).reverse.find? fun ip => !isTrusted contains trustedProxies ip)).or
      (hops parseIpv6 before ++ hops parseIpv6 after).head? := by
  rw [forwarded, hops_append, List.reverse_append, List.find?_append]

lemma forwarded_of_trusted {before after : Text} {ip : IpAddr} (hbefore : hops parseIpv6 before = [ip])
    (hafter : ∀ ip ∈ hops parseIpv6 after, isTrusted contains trustedProxies ip = true) :
    forwarded parseIpv6 contains trustedProxies (before ++ ',' :: after) = some ip := by
  have hnone : ((hops parseIpv6 after).reverse.find? fun ip => !isTrusted contains trustedProxies ip) = none := by
    simpa using hafter
  rw [forwarded_append, hbefore, hnone]
  cases htrusted : isTrusted contains trustedProxies ip <;> simp [htrusted]

/-- The headers of an untrusted peer do not matter, and of a trusted one nothing in front of `after`
matters if and only if a hop in `after` is the plain address of somebody who is not trusted. -/
theorem clientIp_unspoofed_iff (peer : SocketAddr) (after : Text) (realIp : Option Text) :
    (isTrusted contains trustedProxies (canonicalIp peer.ip) = false → ∀ xff xff' realIp realIp',
      clientIp parseIpv6 contains trustedProxies peer xff realIp =
        clientIp parseIpv6 contains trustedProxies peer xff' realIp') ∧
    (isTrusted contains trustedProxies (canonicalIp peer.ip) = true →
      ((∀ before before', clientIp parseIpv6 contains trustedProxies peer (some (before ++ ',' :: after)) realIp =
          clientIp parseIpv6 contains trustedProxies peer (some (before' ++ ',' :: after)) realIp) ↔
        ∃ hop ∈ after.splitOn ',', ∃ ip, parseIpAddr parseIpv6 (trim hop) = some ip ∧
          isTrusted contains trustedProxies (canonicalIp ip) = false)) := by
  refine ⟨fun huntrusted xff xff' realIp realIp' => by simp [clientIp, huntrusted], fun htrusted => ?_⟩
  have hclient (before : Text) :
      clientIp parseIpv6 contains trustedProxies peer (some (before ++ ',' :: after)) realIp =
      ((forwarded parseIpv6 contains trustedProxies (before ++ ',' :: after)).or
        ((realIp.bind fun s => parseIpAddr parseIpv6 (trim s)).map canonicalIp)).getD (canonicalIp peer.ip) := by
    simp [clientIp, htrusted]
  constructor
  · -- Two texts of one address each are told apart unless some hop behind them counts.
    intro hsame
    by_contra hno
    have hafter : ∀ ip ∈ hops parseIpv6 after, isTrusted contains trustedProxies ip = true := by
      intro ip hip
      obtain ⟨raw, hraw, rfl⟩ := List.mem_map.mp hip
      obtain ⟨hop, hhop, hparse⟩ := List.mem_filterMap.mp hraw
      by_contra huntrusted
      exact hno ⟨hop, hhop, raw, hparse, Bool.eq_false_iff.mpr huntrusted⟩
    have hzero : hops parseIpv6 "0.0.0.0".toList = [.v4 #v[0, 0, 0, 0]] := rfl
    have hone : hops parseIpv6 "0.0.0.1".toList = [.v4 #v[0, 0, 0, 1]] := rfl
    have heq := hsame "0.0.0.0".toList "0.0.0.1".toList
    rw [hclient, hclient, forwarded_of_trusted _ _ _ hzero hafter, forwarded_of_trusted _ _ _ hone hafter] at heq
    rw [Option.some_or, Option.some_or, Option.getD_some, Option.getD_some] at heq
    exact absurd heq (by decide)
  · rintro ⟨hop, hhop, ip, hparse, huntrusted⟩ before before'
    have hfound :
        ((hops parseIpv6 after).reverse.find? fun ip => !isTrusted contains trustedProxies ip).isSome = true := by
      rw [List.find?_isSome]
      refine ⟨canonicalIp ip, ?_, by simp [huntrusted]⟩
      rw [List.mem_reverse]
      exact List.mem_map_of_mem (List.mem_filterMap.mpr ⟨hop, hhop, hparse⟩)
    obtain ⟨client, hclient'⟩ := Option.isSome_iff_exists.mp hfound
    rw [hclient, hclient, forwarded_append, forwarded_append, hclient']
    simp

def firstOctet (net : UInt8) : IpAddr → Bool
  | .v4 ip => ip[0] = net
  | .v6 _ => false

theorem clientIp_spoofed :
    (clientIp (fun _ => none) firstOctet [10] (.v4 #v[10, 0, 0, 1] 1234)
        (some "1.2.3.4, 198.51.100.7:4711, 10.0.0.2".toList) none = .v4 #v[1, 2, 3, 4]) ∧
      clientIp (fun _ => none) firstOctet [10] (.v4 #v[10, 0, 0, 1] 1234)
        (some "5.6.7.8, 198.51.100.7:4711, 10.0.0.2".toList) none = .v4 #v[5, 6, 7, 8] := by
  decide +kernel

theorem clientIp_unspoofed_sample :
    clientIp (fun _ => none) firstOctet [10] (.v4 #v[10, 0, 0, 1] 1234)
        (some ("1.2.3.4".toList ++ ',' :: "203.0.113.9, unknown, 10.0.0.2".toList)) none =
      clientIp (fun _ => none) firstOctet [10] (.v4 #v[10, 0, 0, 1] 1234)
        (some ("5.6.7.8".toList ++ ',' :: "203.0.113.9, unknown, 10.0.0.2".toList)) none := by
  apply (((clientIp_unspoofed_iff (fun _ => none) firstOctet [10] (.v4 #v[10, 0, 0, 1] 1234)
    "203.0.113.9, unknown, 10.0.0.2".toList none).2 (by decide +kernel)).mpr _)
  exact ⟨"203.0.113.9".toList, by decide +kernel, .v4 #v[203, 0, 113, 9], by decide +kernel, by decide +kernel⟩

end AurixVoice.Net
