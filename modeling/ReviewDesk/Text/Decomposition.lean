import ReviewDesk.Text.Basic

/-!
# Compatibility decomposition

A character that is a variant of others, such as a ligature, a wide letter or a letter with an
accent, stands for those others. `decompose` puts them in its place and leaves the marks behind
each letter in the order of their classes, so that names that mean the same come out the same. The
tables hold the characters that can stand in a name.
-/

namespace ReviewDesk.Text

/-- Rows of characters, each of which stands for one character at a constant distance. -/
def variantShifts : Shifts := .ofText
  "1wZ+7=19 Z+2=FG 17+2=9w 8+3=A6 B+2=Aa Bk+3=1j 24+2=1I Q+3=O0 143+2=18F 1+5=1B2 2+2=18I 2+9=18L
 1+K=19l L+4=18t 8+2=19b DQU+2=OB Fv+1V=X d+5=3FS 5+4=3Fm 3+5=3Fw C+2=18F 1+5=1B2 2+2=18I 2+9=18L
 4+5=19l 3+5=19r 3+5=19x 3+2=1A3 WQ+2=7E DbU+P=13 1+P=1Z 1+P=13 1+6=1Z 2+H=1h 1+P=13 1+P=1Z 4+6/3=16
 4+3=1G 2+7=1L 1+3=1Z 4+6=1g 2+A=1o 1+P=13 1+P=1Z 4+3=16 3+7=1C 2+6=1L 2+P=1Z 4+3=16 2+4=1B 6+6=1L
 2+P=1Z 1+P=13 1+P=1Z 1+P=13 1+P=1Z 1+P=13 1+P=1Z 1+P=13 1+P=1Z 1+P=13 1+P=1Z 1+P=13 1+P=1Z 5+G=Ej
 2+6=F1 2+O=FF 8+G=Ej 2+6=F1 2+O=FF 8+G=Ej 2+6=F1 2+O=FF 8+G=Ej 2+6=F1 2+O=FF 8+G=Ej 2+6=F1 2+O=FF
 C+9=m 1+9=m*4 1T1+3=Pr T+3=Pr 1W+2=Ps U+2=Ps sl+9=m"

/-- The characters that stand for others and are not in a row, with all that they stand for. -/
def variants : Expansions := .ofText 1 1550
  "2k=1Z B=FQ 5=1n 1w=1B+1C 1h+1i C=1E+2x 1k+ 9=BI+1m s=1r 17=16+1S+Ca +1y+ 1c++ 1E+1C +1i 1k+ 1G+1C
 +1i 1m+ b=16+1S +1y 1c+ 33=1g 9u 1i 1q AD AF AL 1v 1x e=9r 1k 1r 1w Af 1U=CO CP 2=Ch CW+CP m=BF
 J=2x 1B=FG FM F3 3=Fa FU Q=FO FV FW 2=Eq FJ 4=F1 6Q=MH+Mk 3q=P+Qe w+ Rz+ y+ Bs=bV+c8 bW+ bX+ bc+
 bh+ bi+ br+ bv+ 21=dl+eC dm+ 2=dz+ 1M=g6+gG 3=gC+ Z=fe+ ff+ fk+ 3=fz+ 46=jx+kO jy+ Bi=x3+wc
 24=z7+yg f=yZ+yH +yP 1e=110+12t A=11A+ 5=11F+ 5=11K+ 5=11P+ D=10y+12r A=11l+11m 2=+11o 12o+120
 +11l+120 12p+120 +11l+120 8=11l+120 I=12I+12t A=12S+ 5=12X+ 5=12c+ 5=12h+ D=12G+12r 5D=17c oK=13 3C
 14 2=16 17 6Q A=1H 8o 1I 1K 1M 1N 1P 1Z 9Y 9Z 1vm 1a 1c 1d 9h 9j 9k 1f 2=1j 1l 5L 1n 9c 1w61w7 1o
 1s 1t 1wD A3 1u 1wL 4=Fa Fb 1h 1q 1t 1u FG FH FV Fa Fb E=HV Z=9a 1b 9d 3s 9k 1e 9n 9p 9t 4=1xj An
 A1 1xt Ap A5 A4 5=AC AM AN 6t AT AU 1wC AV AW 1y 4=FM 3X=1Z+BK 3T=FF+CP 2=FJ+ 2=FL+ 2=FN+ 2=FT+
 2=FZ+ 2=Fd+ 10=Ej+ 3=FN B=En+CP 2=Ep+ 8=FN+CW+CP 8=Er+CP 8=FZ+CW+CP 8=F3+CP E=Ex+ 2=F7+ 1u=1h E=1m
 H=1Z 1d 1n 1w 9h 1g 5=1o 1r 1s 1e=15 5=6S 3=1f 1A*3 1g 4l 1B*2 1E 1k 2=1G 7=1K 1K 7=1S 2=F7 2=1S
 2=1D 13+CY 14 15 2=1d 17 18 2=1F 1n 5=1h 3=FU FH El Ey 6=16 1c 1d 1h 1i N=1B +1B ++1B +1O 1O +1B
 ++1B +++1B 1B+1Q 1Q +1B ++1B 1E 15 16 1F 1h +1h ++1h +1u 1u +1h ++1h +++1h 1h+1w 1w +1h ++1h 1k 1b
 1c 1l jN=1i 1O 3u=31N BV=5Xl 5Xo5Xp 1d=3EO+3EQ 1Y=3F5+3FQ o=18C 18D1Aw18E1Ay1Az A=18c 4=18j W=19k
 18W18X1BP1BQ1BU1BW1Bb1Bf1Bh18e1Bl1Bn18f18g18i18k18l18p18r 6=190 19419E19L19Q1C51C6 4=1AK 1AL1AO1AX
 1AY1Aa1Ak1An 7nK=Hi Hk 3P=B9L 26=15 18 1J 4=4k 5T Dz=B8B BOx 9z BPO A=AX 5AN=9LE 6r69Va9NI7NZ5Cs5aP
 Ad2Ad25wn9i55h95we6WU7sv8UX8wJ92Q97Y9ct73i7GV7Vx7iQ8o19gQAFd5EA5Yb77s7b98w1AWs6DI7S78uT99I6Zt8e8943
 6JO6rf7Hm7em9du5IM5RP5WA6i47757ay7ux8WX8vO8wm9S3A4IALnAWI81k85f8Mi8m99n2AYR9FG5ux6KK8HY8YY7cI82k9NC
 A3L5uq69S73z7Ja7OZ8Kt8P9A0Z5Vy8Yl5S05Rk88C8NC8mnA1F9I06Zz73i9Fu5Cz67T6Og7h17ou5X583X5JH6Mz5CH7FE6ky
 8Kg5Zr5ss7vN8oD9EY7Ao9ZI7E86ak8iT6dM7oj5Es5Q95Rh6xV8Jj8gZ9FC9i35WX5bu5xL6Jw6mD7SQ84I9y1AHaAYpAZi5V5
 6qM79j9Y26I06Uq6We6hO7Ot7Xl7lB86s8O48YJ9X48qs9b99oA5Sx5VD5dt7Vg96g9EY6JN6OD6cl7Ac8H07gj5Fk5n767T6F0
 6Oq7hi7kf8Us8Xe9jgA3KA4eA805IR86Q9hcA2K6S15EE5Nq67a68t6lV73i7Zu7sI8r69caAcn6pMA065Un6tH6vD7H77Mi7j7
 7oX81D8KOA985QD6XOA1I5L16CP7Jq9X86MV6Tc6vn7h1A1W5TF5b569V6nT6sY6y87Fd7j47qk8UL96t97B9i0A305Xj7NC5bJ
 7Zw7lQ8vCA1zAPXAYx6tj7JL8eO8B18CO8IM7do7Uv9HM5FA8jm5TW5Sh6Io6a38JS65t7GY6q49XP94mA0b99v6JX5PU5i4
 3=5so 2=6p2 3=5S2 7fW7uU84a85885F85vA4s8J48VR 2=8va 2=9Fo 3=9bU 9ef 4=ABT ABgACOAVA9eAA2J5J05O35Ph
 5Vp5WG5Y15hV5jC5km5sO5u469U69e6Qm6UC6Uo6WQ6kJ6mg6pV6xZ7Hz7Kc7Os7YM7bP7jW81p84c84n84m84u85085785t85u
 88m89p8Ey8O48OP8PJ8UE8Wb8eT8gj8gj8oR97w9A69Fx9Gr9NT9OK9ZO9bUA31A7bA8Z6QHcYQ8fA 3=5Cg 5RN5Q85IG5PZ
 5QW5Vn5Wc5hV5gL5hR5ic5so5uF5wa5wq61C64O6JW6Jd6Lx6N36Rs6Tm6Se6Uo6U46WQ6XU6dw6fM6gE6kQ6p26rf6rj6sg79l
 7Ao7H77Nj7NT7Os7Sw7YM7y37bZ7dX7fW7kn7nC7o37rh7rj7uU7ul7vA7wY7wO82m8Ab8Ey8Hz8Lb8O48TO8Wb8kE8ml91N98j
 99q9A69Et9Fo9F59Fx9Fu9Fd9Gr9IA9OK9XM9cQ9hB9kkA1MA31A4sA71A7bA7nA8ZAKIAd2amQamKbY53y94Ge4HBdZpeHIgXj
 AbbAco d=1e+1e +1h +1k +1e+1h ++1k 1r+1s + D=MW+MY +MH +MN Mg+MY MW+MP 6=O9+NY 2=OY+Nb OI O0 O3 O4
 4=OO OQ 2=OP+Nl +Nm +Ng+Nl ++Nm O0+Nb +Nc +Ng O1+ O2+ O3+ O4+ O5+ O6+ 2=O8+ O9+ OA+ OB+ OC+ 2=OE+
 2=OG+ OH+ 2=OJ+ OK+ 2=OM+ ON+ OO+ OP+ OQ+ O5+Nd O1+Nj OB+ OK+ O0+OC Qb*2 Ql*4 Qo*4 Qq*4 Qk*4 Qp*4
 Qj*4 RQ*4 RS*4 Qu*4 Qt*4 Qw*4 Qx*4 R3*2 R2*2 R4*2 Qy*2 RE*2 R7*2 RV*4 Rb*4 Rf*4 Rd*4 Rm*2 Rn*4
 SD+Q8 + Rt*4 Rq*4 SA*2 +Q8 + Y=RZ RZ*3 Rz*2 Ry*2 S0*2 Rz+Qe S3*2 Rx*2 S1*2 S8*4 x*2 y+Q8+P ++ ++SD
 ++ ++w ++ ++Rz ++ ++Ry ++ ++S0 ++ ++S8 ++*2 ++x ++*2 S4*4 y+Q8+|UVtxy Q+|UVWtxy S+|UVWtxy T+|Utxy
 U+|Vt V+|Ut W+|UVt b+|UVWt d+|Vt e+|UVWt f+|Vt g+ h+|Ut i+|Ut p+|UVWtxy q+|Vtxy r+|PUVWstxy
 s+|UVWtxy t+|UVWtxy u+|UVWtxy v+|Utxy y+|UVWtxy Y+Qa Z+ x+ 7=y+Q8+Z ++|atuxy Q+|Zatuxy S+|Zatuxy
 T+|Zatuxy p+|xy q+|xy r+|Pstxy s+|txy t+|Pt u+|Zatuxy x+Qa y+|Zatuxy +Q8+|UVWtv Q+|UVWtv S+|UVWtv
 T+t U+|Vt V+|Ut W+|Ut b+|UVWt d+|VWt e+|UVWt f+V g+t h+|Ut i+|Ut p+|UVWt q+|Vt r+|UVWst s+|UVWtv
 t+|UVWt u+|UVWtv v+|Ut +Qa y+|UVWtv +Q8+|tv Q+|tv S+|tv T+|tv b+|tv c+|tv r+|st s+ u+ +v y+|tv
 o+Q2+Q5 +Q3+ +Q4+ f+|xy h+|xy i+|xy b+|xy c+|xy V+|xy U+|xy W+|xy d+|xy e+|xy c+|UVWtZ b+ d+ e+
 f+|xy h+|xy i+|xy b+|xy c+|xy V+|xy U+|xy W+|xy d+|xy e+|xy c+|UVWtZ b+ d+ e+ c+|UVWt b+v c+ f+t
 b+|UVW c+|UVW f+t g+ P+z + J=S+U+t +V+U ++ ++t +W+ +t+|UVW U++V ++ V++|yx b+V+U +U+|Vx +t+V ++
 ++|Ut ++ d+V+V ++ +t+t c+V+ ++ +U+y +t+W ++ ++t ++ e+V+x +W+t ++ f+t+V ++ ++|ty h+U+t +t+ ++ ++x
 i++|tyx p+W+t ++ q+t+|Vt s+V+ ++|yx +U+U ++ +W+t ++ +t+V ++ t+V+|Uty +U+|Vt +W+|Ut 3=+U+W v+t+|Ut
 u+V+ ++x +U+t ++ ++x +t+|yx y++t ++ Q+W+y S+U+ ++x +W+|yx +t+|yx U++y +V+x +t+ b+W+ d+V+y c++ e++
 s+U+ +t+ y+V+ +U+ +t+ t++ q++ u+V+ q+t+V s+V+t h+t+y r++ u+U+V t+W+y s+U+t r+t+ s+U+ u++V U+V+y
 V+U+ t++ p+t+ Q+V+ r+t+t h+U+ d+t+ b+W+y u+U+ f=d+s+SA q++ P++s+v +r+Q+Z t+V+t+X d+s+h+t Z+b+w+s
 h+s+y+v w+b+s+t d+s+x w=1X 1X P=1X 1X*2 Y=o+z 6=+Q2 2=+Q3 2=+Q4 2=+Q5 2=+Q6 J P+Q7 + +Q8 + w+ +
 P+Q9 + y+Q8 +*3 P*2 Q*4 R*2 S*4 T*4 U*4 V*4 W*4 X*2 Y*2 Z*2 a*2 b*4 c*4 d*4 e*4 f*4 g*4 h*4 i*4 p*4
 q*4 r*4 s*4 t*4 u*4 v*4 w*2 x*2 y*4 s+P+Q7 ++ ++Q8 ++ ++Q9 ++ + + 1i=3G6
 3En3Ep3Er3Et3Ev3Fr3Ft3Fv3FL3GG3Eo3Eq3Es3Eu3Ew3Ex3Ez3F13F33F53F73F93FB3FD3FF3FH3FJ3FM3FO3FQ 7=3Fa
 3Fd3Fg3Fj 6=3Fs 3Fu 7=3G3 3G73Ef3Eg19k18C18D1Aw18E1Ay1Az A=18c 4=18j WD=Bc Bd 3i Aj 9b 2=At BPi Av
 Au 9e 9f 1y5 9g 9m Az 9s 9q 9o Al 4l Am 9v AO B0 B1 A0 VtsB9q A2 Vtt AY Vtu 40 AA AB 1p AE Vtw AH
 AI AK Ay Aw BPj Ax AS 2xV 2=AZ Ar As Ai 4=Vty VuI Ddy=13 2=15 8=1D L=1e 1B=13 14 p=13 14 D=1H 5e=4v
 99 K=Eq Z=FJ FM FO Fa FV FU I=Eq Z=FJ FM FO Fa FV FU I=Eq Z=FJ FM FO Fa FV FU I=Eq Z=FJ FM FO Fa FV
 FU I=Eq Z=FJ FM FO Fa FV FU Fw Fx 1Th=P Q U X 2=w a V f y 5=b h p d q Z c S T W Y e g i QY Rm RN QZ
 2=Q U 2=v 3=V 2=y 5=b h p d q 2=c S T W 2=e 2=i 7=U 5=V 2=y 2=s 2=u b h 2=d q 2=c 3=W 2=e 2=i 2=Rm
 2=QZ 2=Q U 2=v 3=V f y r 2=t u b h p d q 2=c S T W 2=e g i QY 2=RN 2=P Q U X v w a V f y 5=b h p d
 q Z c S T W Y e g i 6=Q U X 2=w a V f y 5=b h p d q Z c S T W Y e g i HfJ=5D3
 5Cy5D7YAk5Hk5J05JD5KM5MI5Mn5O35Nf3VGYVm5Ph5Po5Q45QNYRA3Vh5Q75QjYRv5Qt5R65FM5RE5RNhoN5SP5Sd3WJ5TX5Ti
 5UQ5UV3XB5Vn5Vp5WG5Wc5Wn5Wo5X55Xt5Y15YA5YZ5Yj5Yl5Yl5YlYm47UG5Zy5aJYr55aV5ab5aw5dO5bk5c05cW5dS5eo5fE
 5gJ5gZ5h65h65hR5hj5hr5i65na5jC5nb5kP5ky5Sh5vC5qY5rA5rZ5pT5sA5s95u8ZUK5vG5vL5va5vu5w25x4ZbcZcg5zI603
 60F5yy61G3eo3f263s64k64kZoW66t67E67T67fZtw67r67y6Lb68Q3hB69Q69e6Ay6A9a5U6D5a5W6Dm6Dj6E06Fd6Fe3jz6G5
 6Gm6H76Hp3koaKR3lE6Iy6J16J46JOizS6KEaRNaRN8en6Ko6Ko3mRbTUec66Lq6Lz3mt6Mk6NZ6Nj6OH6QT3oI3no6QmagO6Rb
 6Tg6Tk6Tm6Tk6UU6Uo6VO6VA6VL6W66WQ6WU6Wu6X56Y96ZV6a46c4axo6bl6ai6cS6ct6eSb1V6fS6dx6dV3sE6gb6gw6hR6gp
 3tE6kJ6kmbIQ6mh6rA6oL3w16pV3vk3vA5Qo5Qr6rI6pg8ZJ4W96rf6rj6rp6so6sdbXn3wn6vK6tR6wk6xZbaX6xi6vv6zs3y9
 70c72B73K76Objf77D40878Lbrz79A41079e7AN7Ao7Apbzpa1zc1a7DCc8q7F17FF7Db7GQ7H47Hz7H77Hl7I07IDcAQ7Gu7Kx
 7Ly44h7NT7NPcHR7K57Q6cJicKU7RW7TN7Sw7St46I7Te7UT7UN7VFYRJ7XhcWB7Z6cbT7bM7bZ7c0clE7cm7d7cq5ctg7go7h5
 4Am7hV4Ay4Ay7k77kS7kn7l77mE4CZ7ngdAk7o6dCE7ouaKt7rUdOrdPEdRU4GC4GO7vAdUJdUIdUvdVL7vq7vr7vr7wY4HB7xb
 4HO4IgdhN80k81k82m4Jvdpm850dredsL85v87P4L988m88w891e3Ye8Ne8N8Ba4OYeCZ8F48F74P9eG08JO4R68Jk8Jf8K8eSU
 8Lj4Sf8NL8OI8PN4TUedMedr4U5egD8UMehq8Un8WQ8WbeoUepf8Y4ero8YKbWB4W58ZO8ah4Wx8be62Xf03f0HbX1bXA8en8eq
 9Z04YV8h78h18hJ5VT8hd8hf8hp8iUfEq8iT8jN8kV8lh8jT8lx8md8oR8kF8mA8mC8mSfIsfNrfLR4bb8qv8qx8rWfoA8smfV6
 4cP4cTfXFfbu4cd8wa8wm8wx8wz8y18xU8ze8yw91N90491991a4eN93393Z4ev956959fyx9719784ft97a3Vjg8MgBK4i64iF
 9EO9Fd9IA9LRgOm9Mp9NB9Od9Q7gZDYdA9RT9RE9S4Ygg9Vk9XMh0ch139cy9eT9ezh6E9f99jk9mJ9mK9kq9qz9rRhQ29xT4tp
 9yBhWB4v8A2V6EsA43hlthpK4xK4xSA76hxK4yQhzaA7nA7nA8Hi4EABG50VACPAERAEsAFq530iQqAKIAPAASD57857dATvio2
 57oiovitCivJAZP59KAaPAaUAabAalAasAbTj9U"

/-- The characters that are made of two, the first of which may be made of two itself. A small letter
is made of the small letter of what its capital is made of. -/
def composites : Expansions :=
  let capitals := Expansions.ofText 2 0x300
    "36=13+0 =+|1238A 15+d =17+|0128 =1B+|0128 1G+3 =1H+|01238 3=1N+0 =+|128 =1R+1 Z=13+4 +|6e
 15+|127C 16+ 4=17+4 +|67eC 19+|267d 1A+2 4=1B+3 +|46e7 4=1C+2 1D+d 3=1E+1 +|dC 6=1G+1 +|dC 5=1H+4
 +|6B 4=1K+1 +|dC 1L+|12dC 1M+|dC 4=1N+3 +|46ABe 1P+2 1R+ +8 =1S+1 +|7C Z=1H+R F=1N+ U=13+C 1B+ 1H+
 1N+ 3Y+|41C0 3=3A+4 8s+ 3C+ 4=19+C 1D+ 1H+e 7u+4 75+C 1i+ 4=19+1 4=1G+0 3B+1 3C+ 3U+ 13+|FH 17+|FH
 1B+|FH 1H+|FH 1K+|FH 1N+|FH 1L+c 1M+ 4=1A+C 8=13+7 17+d 3S+4 3R+ 1H+7 90+4 1R+ 5U=Ej+1 En+ =Ep+
 =Er+ Ex+ F3+ =F7+ =Fe+ Q=Er+8 =F3+ 5=Ff+1 Z=Fm+ =+8 i=Gr+0 =+8 Gp+1 4=Gc+8 5=Gw+1 =Gu+0 =H5+6 B=Gu+
 1V=IO+F 1D=Gs+6 F=Gm+ +8 4=Gr+6 4=K0+8 Gs+ Gt+ 4=Gu+4 +8 H0+ 4=KG+ HF+ H5+|48B H9+8 4=HD+ 4o=PP+Q7
 =+Q8 =Pw+ =PP+Q9 =Py+Q8 2U=SD+ Rt+ H=SA+ 9e=bo+c8 8=bw+ 3=bz+ 2R=eN+eE =+ed 68=kZ+ko 3=+kQ =+kp
 1A=lm+mt s=mc+mU =md+ =mc+mt 20=og+ow 1w=qd+qz 7=qk+ =+r0 +qg =qo+qz 23=so+sg =sp+ =so+t5 2I=vB+uw
 +v1 =vE+uw =vB+vH 9Q=14f+14o iu=1nZ+1oL 1nb+ 1nd+ 1nf+ 1nh+ 4=1nl+ f=1oQ+ 1oS+ 3=1oU+ =1oV+ 1oY+
 BJ=13+b 14+|7Zn 3D+1 16+|7Zndj 4Q+|01 17+|jm 8u+6 18+7 19+4 1A+|7Z8dk 1B+m 3L+1 1D+ +|Zn 1E+Z 20k+4
 1E+|nj 1F+|17Z 1G+|7Znj 3R+|18 5M+|01 1I+ +7 1K+ +Z 21K+4 1K+n 1L+|7Z 5a+7 5g+ 21S+ 1M+ +|Znj
 1N+|amj 5o+1 5q+8 1O+|3Z 1P+|0187Z 1Q+|78 1R+7 1S+|2Zn 1g+ =1s+8 =1v+A =1x+ 6B+7 5=13+Z +9 38+|1093
 22S+2 4A+|1093 22S+6 17+|Z93 3G+|1093 22q+2 1B+|9Z 1H+ +9 3Q+|1093 23A+2 6i+|1093Z 1N+ +9 6x+|1093Z
 1R+|0Z93 G=Ej+J =+K =248+0 =249+ =248+1 =249+ =248+DS =249+ 9=En+J =+K =24O+0 =24P+ =24O+1 =24P+
 B=Ep+J =+K =24e+0 =24f+ =24e+1 =24f+ =24e+DS =24f+ 9=Er+J =+K =24u+0 =24v+ =24u+1 =24v+ =24u+DS
 =24v+ 9=Ex+J =+K =25A+0 =25B+ =25A+1 =25B+ 3=FZ+J 25I+|01 +DS 3=F3+K 25R+|01 +DS 9=F7+J =+K =25g+0
 =25h+ =25g+1 =25h+ =25g+DS =25h+ P=248+DV =249+ =24A+ =24B+ =24C+ =24D+ =24E+ =24F+ 9=24e+ =24f+
 =24g+ =24h+ =24i+ =24j+ =24k+ =24l+ 9=25g+ =25h+ =25i+ =25j+ =25k+ =25l+ =25m+ =25n+ 3=25o+ FA+
 FF+DS =26w+DV =Ej+|640 +DV 6=25s+ FC+ FL+DS =27C+DV =En+0 Ep+ +DV 6=Fe+0 4=FN+DS =Fe+ =Er+|640
 8=Ff+ FV+J FZ+DS =Ff+ =F3+|640 Ez+K 6=260+DV Fi+ Fd+DS =27y+DV =Ex+0 F7+ +DV 15M=3DP+3Ef 3DR+ 3DT+
 3DV+ 3DX+ 3DZ+ 3Db+ 3Dd+ 3Df+ 3Dh+ 3Dj+ 3Dl+ 3=3Do+ 3Dq+ 3Ds+ 7=3Dz+ =+3Eg 3E2+3Ef =+3Eg 3E5+3Ef
 =+3Eg 3E8+3Ef =+3Eg 3EB+3Ef =+3Eg N=3DK+3Ef A=3Ej+ E=3Ex+ 3Ez+ 3F1+ 3F3+ 3F5+ 3F7+ 3F9+ 3FB+ 3FD+
 3FF+ 3FH+ 3FJ+ 3=3FM+ 3FO+ 3FQ+ 7=3FX+ =+3Eg 3Fa+3Ef =+3Eg 3Fd+3Ef =+3Eg 3Fg+3Ef =+3Eg 3Fj+3Ef
 =+3Eg N=3Es+3Ef 3=3G3+ =3G4+ =3G5+ =3G6+ 4=3GH+ EtI=I9Z+IA6 I9b+ F=I9l+ 27=IC1+IBr =IC2+ 8i=IKd+IKU
 =+IKt 5v=IQb+IQc =+IQS +IQf 44=IUi+IUZ =IUj+ EP=Ij7+Ij2"
  capitals ++ capitals.filterMap fun m =>
    let small := lowerShifts.apply (Char.ofNat m.1)
    if small.toNat = m.1 then none else some (small.toNat, m.2.map lowerChar)

/-- The classes of the characters that are marks, by ranges with the class behind each, `1+1/3G`; the
class 220 is a bare slash, and 230 is left out. -/
def markClasses : List (Range × Nat) :=
  let entries := (tableEntries
    "CO+K 1/3k 1+3/ 1/3k 1/3U 1+4/ 1+1/3G 1+3/ 1+1/3G 1+A/ 1+4/1 1+3/ 1+7 1/3s 1 1+2/ 1+2 1+1/ 2+2
 1+3/ 1 1/3k 1+1/ 1 1/3l 1+1/3m 1/3l 1+1/3m 1/3l 1+C 4S+4 4I/ 1+3 1/ 1+2 1/3a 1/ 1+5 1+5/ 1+1 1/ 1+1
 1/3a 1/3g 1 1/A 1/B 1/C 1/D 1/E 1/F 1/G 1/H 1/I 1+1/J 1/K 1/L 1/M 2/N 2/O 1/P 2 1/ 2/I 1B+7 1/U 1/V
 1/W n/R 1/S 1/T 1/U 1/V 1/W 1/X 1/Y 1+1 1+1/ 1+4 1/ 1+1 1/ H/Z 1e+6 3+3 1/ 1 3+1 2/ 1+1 1/ a/a V 1/
 1+1 1/ 1+1 1+2/ 1 1+1/ 1 1/ 1+2 1/ 1 1/ 1 1/ 1 1/ 1+1 2b+6 1/ 1 A/ P+3 2+8 2+2 2+4 i+2/ z 1+2/ 1+3
 h+4 1+4/ 1+D 2/ 1+1 1/ 1+1 1/ 1+2 1+2/ 1/R 1/S 1/T 1+2 1/ 1+1 1+1/ 1+4 z/7 H/9 4 1/ 1+1 1g/7 H/9 n
 10/7 H/9 1n/7 H/9 1n/7 H/9 24/9 1n/7 H/9 8/1M 1/1T 1e/7 H/9 1m+1/9 H/9 21/9 1m+1/1f 1/9 E+3/1j
 1l+1/1u 1/9 E+3/1y 1F+1/ S/ 2/ 2/3U u/25 1/26 2/28 6+3/26 3/26 2+1 1/9 2+1 11/ 1p/7 2+1/9 1L/ Bc+2
 FJ+1/9 V/9 2Y/9 B 3I/3g 2K/3a 1 1/ 3Y 1/ 1A/9 L+7 3/ n+4 1+5/ 1+1 1/ 2+1/ 1+1 1+1/ 1+4 1/ 1+3 1e/7
 G/9 d 1/ 1+6 t+1/9 x/7 C+1/9 16/7 2T+2 2/1 1+4/ 1+1 1+3/ 1 2+6/1 5/ 7 4+1 3D+1 1/ 1+6 1/ 1+1 1/3m
 1/3S 1/ 1/3G 1+a 1/3k 1+1/3g 1/ 1/3W 1 1/3l 1/ 1 1/ Bd+1 1+1/1 1+3 1+2/1 1+1 5 4+1/1 1 1/ 1 1+1/1
 1+3/ 1 nX+2 2I/9 1Z+V 8x/3W 1/3g 1/3k 1/3a 1+1/3c 1i+1/8 7qX 5+9 X+1 1J+1 4T/9 c/9 2S/9 S+H w+2/
 c/9 1Y/7 D/9 3s 2+1 1/ 3+1 6+1 2 r/9 3z/9 5Gz/Q CQ+6 1+6/ 1+1 Fi/ 3f/ 2Q+4 R9/ 2 f 1/1 1/ 5/9 2g 1/
 9G+3 6G+1 2U+1/ 1+2 1/ 1 1+3/ o 1/ 1 1/ 37/9 g/9 F/9 w/9 1/7 18+2 n+1/9 11/7 1F/9 A/7 1j/9 1/7 2t/7
 1/9 1J+1/7 H/9 P+6 4+4 3K/9 4/7 O 1c/9 1/7 44/9 1/7 23/9 1v/9 1/7 1s/9 4M/9 1/7 4B+1/9 5/7 2X/9
 1M/9 J/9 1K/9 6o/9 4B/7 2+1/9 1K/9 59N+4/1 y+6 JW+1/6 56b/1 1Nn+1/3U 1+2/1 4/3e 1+4/3U 9+7/ 3+4
 1+1/ V+3 2P+2 ui+6 2+G 3+6 2+1 2+4 4E+6 64 10+3 OH+6/ 1m+5 1/7").map (·.span (· != '/'))
  (rangesFrom 0 (entries.map (·.1))).zip (entries.map fun e => match e.2 with
    | [] => 230
    | ['/'] => 220
    | digits => tableNumber digits)

/-- The class of a mark; a character that is no mark has the class zero. -/
def markClass (c : Char) : Nat :=
  if c.toNat < 0x300 then 0
  else ((markClasses.find? fun m => m.1.first ≤ c.toNat && c.toNat ≤ m.1.last).map (·.2)).getD 0

/-! ## Syllables of the Korean script

A syllable is a leading consonant, a vowel and perhaps a trailing consonant, and its number is
made of theirs.
-/

def firstSyllable : Nat := 0xAC00
def leading : Nat := 0x1100
def vowel : Nat := 0x1161
def trailing : Nat := 0x11A7
def leadings : Nat := 19
def vowels : Nat := 21
/-- One more than there are trailing consonants, for a syllable without one. -/
def trailings : Nat := 28

def isSyllable (c : Char) : Bool :=
  firstSyllable ≤ c.toNat && c.toNat < firstSyllable + leadings * vowels * trailings

def syllableParts (c : Char) : Chars :=
  let n := c.toNat - firstSyllable
  let front := [Char.ofNat (leading + n / (vowels * trailings)),
                Char.ofNat (vowel + n / trailings % vowels)]
  if n % trailings = 0 then front else front ++ [Char.ofNat (trailing + n % trailings)]

/-! ## Decomposition -/

/-- All that a character stands for. `depth` bounds how often a composite is taken apart. -/
def partsOf : Nat → Char → Chars
  | 0, c => [c]
  | depth + 1, c =>
    if c.toNat < 0xA0 then [c]
    else if isSyllable c then syllableParts c
    else match composites.get? c with
      | some cs => cs.flatMap (partsOf depth)
      | none => (variants.get? c).getD [variantShifts.apply c]

/-- A composite has at most this many marks. -/
def mostMarks : Nat := 4

/-- Puts a character behind a text, which is given from its end: a mark goes before the marks of
higher classes. -/
def insertMark (c : Char) : Chars → Chars
  | [] => [c]
  | d :: r =>
    if markClass c != 0 && markClass c < markClass d then d :: insertMark c r else c :: d :: r

def orderMarks (cs : Chars) : Chars :=
  (cs.foldl (fun before c => insertMark c before) []).reverse

def decompose (cs : Chars) : Chars := orderMarks (cs.flatMap (partsOf mostMarks))

/-! ## Compatibility composition

`normal` is the form in which two names that mean the same are equal: variants are replaced by what
they stand for, and letters and marks are then put together where there is one character for both.
-/

def composeSyllable? (a b : Char) : Option Char :=
  if leading ≤ a.toNat && a.toNat < leading + leadings && vowel ≤ b.toNat &&
      b.toNat < vowel + vowels then
    some (Char.ofNat
      (firstSyllable + ((a.toNat - leading) * vowels + (b.toNat - vowel)) * trailings))
  else if isSyllable a && (a.toNat - firstSyllable) % trailings = 0 && trailing < b.toNat &&
      b.toNat < trailing + trailings then
    some (Char.ofNat (a.toNat + (b.toNat - trailing)))
  else none

def compose? (a b : Char) : Option Char :=
  (composeSyllable? a b).orElse fun _ =>
    (composites.find? (·.2 == [a, b])).map fun m => Char.ofNat m.1

/-- A mark joins the letter before it only if no mark that is left between them has its class or a
higher one. -/
def reaches (c : Char) : Chars → Bool
  | [] => true
  | d :: _ => markClass d < markClass c

/-- Puts a letter together with the marks that follow it. `marks` are those that stay, from the
last. -/
def composeFrom (letter : Char) (marks : Chars) : Chars → Chars
  | [] => letter :: marks.reverse
  | c :: r =>
    match if reaches c marks then compose? letter c else none with
    | some both => composeFrom both marks r
    | none =>
      if markClass c = 0 then letter :: marks.reverse ++ composeFrom c [] r
      else composeFrom letter (c :: marks) r

/-- Marks at the very front have no letter. -/
def compose : Chars → Chars
  | [] => []
  | c :: r => if markClass c = 0 then composeFrom c [] r else c :: compose r

def normal (cs : Chars) : Chars :=
  if cs.all (·.toNat < 128) then cs else compose (decompose cs)

end ReviewDesk.Text
