import CiPlan.Matrix

/-!
# The built-in matrix

Five buckets at the local level, which use no cloud account, and seven at the release level.  The
buckets of a group divide the tests up.  The buckets of the logged-in session at the local level run
some tests once more and belong to no group.
-/

namespace CiPlan.Matrix

/-- The selectors of the built-in buckets. -/
def notCluster : Selector := .known "not clustertest" (.not (.term "clustertest"))

@[inherit_doc notCluster]
def plainCluster : Selector :=
  .known "clustertest and not ondemand and not multinode"
    (.and (.and (.term "clustertest") (.not (.term "ondemand"))) (.not (.term "multinode")))

@[inherit_doc notCluster]
def onDemand : Selector :=
  .known "ondemand and not multinode" (.and (.term "ondemand") (.not (.term "multinode")))

/-- The selector of one term, which is a name of a built-in tag or keyword. -/
def serverTest : Selector := .known "servertest" (.term "servertest")

@[inherit_doc serverTest]
def secretTest : Selector := .known "secrettest" (.term "secrettest")

@[inherit_doc serverTest]
def multinode : Selector := .known "multinode" (.term "multinode")

@[inherit_doc notCluster]
def awsLocalKeyword : Selector :=
  .known "ondemand_aws_cluster and not den_launched"
    (.and (.term "ondemand_aws_cluster") (.not (.term "den_launched")))

@[inherit_doc serverTest]
def awsDenKeyword : Selector :=
  .known "den_launched_ondemand_aws_cluster" (.term "den_launched_ondemand_aws_cluster")

@[inherit_doc serverTest]
def gcpKeyword : Selector := .known "ondemand_gcp_cluster" (.term "ondemand_gcp_cluster")

@[inherit_doc serverTest]
def kubernetesKeyword : Selector := .known "ondemand_k8s_cluster" (.term "ondemand_k8s_cluster")

/-- A local bucket, with a time limit of an hour. -/
def localBucket (name : String) (marker : Selector) (profile : String) (group : Option String) :
    Bucket :=
  ⟨name, .local, marker, none, profile, some 3600, group⟩

/-- A release bucket. -/
def releaseBucket (name : String) (marker : Selector) (keyword : Option Selector)
    (profile : String) (timeoutSecs : UInt64) : Bucket :=
  ⟨name, .release, marker, keyword, profile, some timeoutSecs, some "release"⟩

/-- The buckets of the built-in matrix. -/
def builtinBuckets : List Bucket :=
  [localBucket "not-cluster-tests-logged-out" notCluster "local-logged-out" (some "local"),
    localBucket "cluster-tests-local" plainCluster "local-logged-out" (some "local"),
    localBucket "not-cluster-tests-logged-in" notCluster "local-logged-in" none,
    localBucket "server-tests-logged-in" serverTest "local-logged-in" none,
    localBucket "secret-tests-logged-in" secretTest "local-logged-in" none,
    releaseBucket "not-cluster-tests" notCluster none "local-logged-in" 3600,
    releaseBucket "cluster-tests" plainCluster none "local-logged-in" 3600,
    releaseBucket "ondemand-aws-local-tests" onDemand (some awsLocalKeyword) "aws" 7200,
    releaseBucket "ondemand-aws-den-tests" onDemand (some awsDenKeyword) "aws-den" 7200,
    releaseBucket "multinode-tests" multinode none "aws" 7200,
    releaseBucket "ondemand-gcp-tests" onDemand (some gcpKeyword) "gcp" 7200,
    releaseBucket "kubernetes-tests" onDemand (some kubernetesKeyword) "kubernetes" 7200]

/-- The built-in buckets pass the check of a matrix. -/
theorem check_builtinBuckets : check builtinBuckets = .ok () :=
  check_eq_ok_iff.2 (by decide +kernel)

/-- The built-in matrix. -/
def builtin : Matrix := ⟨builtinBuckets, check_builtinBuckets⟩

/-- The file that the built-in matrix is written in. -/
def builtinText : String :=
  "# Runhouse 테스트 매트릭스\n#\n# local: push / pull_request 에서 실행 (클라우드 계정 미사용)\n# release: schedule / workflow_dispatch 에서 실행 (실제 클라우드, K8s 프로비저닝)\n#\n# 같은 exclusive_group 안의 버킷은 같은 테스트를 선택할 수 없습니다.\n# 로그인 상태 변형 버킷(logged-in)은 의도적으로 같은 테스트를 다시 실행하므로 그룹에 속하지 않습니다.\n\nbuckets:\n  # ─── local ────────────────────────────────────────────────────────
  - name: not-cluster-tests-logged-out
    level: local
    marker: \"not clustertest\"
    profile: local-logged-out
    timeout_secs: 3600
    exclusive_group: local\n
  - name: cluster-tests-local
    level: local
    marker: \"clustertest and not ondemand and not multinode\"
    profile: local-logged-out
    timeout_secs: 3600
    exclusive_group: local\n
  - name: not-cluster-tests-logged-in
    level: local
    marker: \"not clustertest\"
    profile: local-logged-in
    timeout_secs: 3600\n
  - name: server-tests-logged-in
    level: local
    marker: \"servertest\"
    profile: local-logged-in
    timeout_secs: 3600\n
  - name: secret-tests-logged-in
    level: local
    marker: \"secrettest\"
    profile: local-logged-in
    timeout_secs: 3600\n\n  # ─── release ──────────────────────────────────────────────────────
  - name: not-cluster-tests
    level: release
    marker: \"not clustertest\"
    profile: local-logged-in
    timeout_secs: 3600
    exclusive_group: release\n
  - name: cluster-tests
    level: release
    marker: \"clustertest and not ondemand and not multinode\"
    profile: local-logged-in
    timeout_secs: 3600
    exclusive_group: release\n
  - name: ondemand-aws-local-tests
    level: release
    marker: \"ondemand and not multinode\"
    keyword: \"ondemand_aws_cluster and not den_launched\"
    profile: aws
    timeout_secs: 7200
    exclusive_group: release\n
  - name: ondemand-aws-den-tests
    level: release
    marker: \"ondemand and not multinode\"
    keyword: \"den_launched_ondemand_aws_cluster\"
    profile: aws-den
    timeout_secs: 7200
    exclusive_group: release\n
  - name: multinode-tests
    level: release
    marker: \"multinode\"
    profile: aws
    timeout_secs: 7200
    exclusive_group: release\n
  - name: ondemand-gcp-tests
    level: release
    marker: \"ondemand and not multinode\"
    keyword: \"ondemand_gcp_cluster\"
    profile: gcp
    timeout_secs: 7200
    exclusive_group: release\n
  - name: kubernetes-tests
    level: release
    marker: \"ondemand and not multinode\"
    keyword: \"ondemand_k8s_cluster\"
    profile: kubernetes
    timeout_secs: 7200
    exclusive_group: release\n"

end CiPlan.Matrix
